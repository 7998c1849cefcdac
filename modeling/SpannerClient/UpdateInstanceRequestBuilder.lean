import SpannerClient.AdminClient
import SpannerClient.Protobuf.InstanceAdmin

namespace SpannerClient

open Protobuf (Labels)

structure UpdateInstanceRequestBuilder where
  request : Protobuf.UpdateInstanceRequest

namespace UpdateInstanceRequestBuilder

abbrev StringMap := AList fun _ : String => String

def ofProto (inst : Protobuf.Instance) : UpdateInstanceRequestBuilder := ⟨inst, []⟩

def ofName (instanceName : String) : UpdateInstanceRequestBuilder :=
  ofProto ⟨instanceName, "", 0, ∅⟩

def ofInstance (inst : Instance) : UpdateInstanceRequestBuilder := ofName inst.fullName

def default : UpdateInstanceRequestBuilder := ofName ""

variable (runtime : Protobuf.Runtime)

def setName (name : String) (b : UpdateInstanceRequestBuilder) : UpdateInstanceRequestBuilder :=
  { b with request.inst.name := name }

def addPath (path : String) (b : UpdateInstanceRequestBuilder) : UpdateInstanceRequestBuilder :=
  if runtime.isPathInFieldMask path b.request.fieldMask then b
  else { b with request.fieldMask := b.request.fieldMask ++ [path] }

def setDisplayNameImpl (displayName : String) (b : UpdateInstanceRequestBuilder) :
    UpdateInstanceRequestBuilder :=
  let b := b.addPath runtime "display_name"
  { b with request.inst.displayName := displayName }

def setNodeCountImpl (nodeCount : Int) (b : UpdateInstanceRequestBuilder) :
    UpdateInstanceRequestBuilder :=
  let b := b.addPath runtime "node_count"
  { b with request.inst.nodeCount := nodeCount }

def insertLabels (labels : Labels) (given : StringMap) : Labels :=
  given.entries.foldl (fun labels pair => runtime.insert labels pair.1 pair.2) labels

def addLabelsImpl (given : StringMap) (b : UpdateInstanceRequestBuilder) :
    UpdateInstanceRequestBuilder :=
  let b := b.addPath runtime "labels"
  { b with request.inst.labels := insertLabels runtime b.request.inst.labels given }

def clearLabels (b : UpdateInstanceRequestBuilder) : UpdateInstanceRequestBuilder :=
  { b with request.inst.labels := ∅ }

def build (b : UpdateInstanceRequestBuilder) : Protobuf.UpdateInstanceRequest := b.request

inductive Setter
  | setName (name : String)
  | setDisplayName (displayName : String)
  | setNodeCount (nodeCount : Int)
  | addLabels (given : StringMap)
  | setLabels (given : StringMap)

inductive RefQualifier
  | lvalue
  | rvalue

structure Call where
  setter : Setter
  qualifier : RefQualifier

def call (b : UpdateInstanceRequestBuilder) (c : Call) : UpdateInstanceRequestBuilder :=
  match c.setter, c.qualifier with
  | .setName name, .lvalue | .setName name, .rvalue => b.setName name
  | .setDisplayName displayName, .lvalue | .setDisplayName displayName, .rvalue =>
    b.setDisplayNameImpl runtime displayName
  | .setNodeCount nodeCount, .lvalue | .setNodeCount nodeCount, .rvalue =>
    b.setNodeCountImpl runtime nodeCount
  | .addLabels given, .lvalue | .addLabels given, .rvalue => b.addLabelsImpl runtime given
  | .setLabels given, .lvalue | .setLabels given, .rvalue =>
    b.clearLabels.addLabelsImpl runtime given

def calls (b : UpdateInstanceRequestBuilder) (cs : List Call) : UpdateInstanceRequestBuilder :=
  cs.foldl (call runtime) b

namespace Call

def name? (c : Call) : Option String :=
  match c.setter with
  | .setName name => some name
  | .setDisplayName _ | .setNodeCount _ | .addLabels _ | .setLabels _ => none

def displayName? (c : Call) : Option String :=
  match c.setter with
  | .setDisplayName displayName => some displayName
  | .setName _ | .setNodeCount _ | .addLabels _ | .setLabels _ => none

def nodeCount? (c : Call) : Option Int :=
  match c.setter with
  | .setNodeCount nodeCount => some nodeCount
  | .setName _ | .setDisplayName _ | .addLabels _ | .setLabels _ => none

def path? (c : Call) : Option String :=
  match c.setter with
  | .setName _ => none
  | .setDisplayName _ => some "display_name"
  | .setNodeCount _ => some "node_count"
  | .addLabels _ | .setLabels _ => some "labels"

/-- The labels after it, where `AddLabels` binds the keys that are not bound yet. -/
def keepLabels (labels : Labels) (c : Call) : Labels :=
  match c.setter with
  | .addLabels given => labels ∪ given.toFinmap
  | .setLabels given => given.toFinmap
  | .setName _ | .setDisplayName _ | .setNodeCount _ => labels

/-- The labels after it if `AddLabels` bound all the keys that are given. -/
def overwriteLabels (labels : Labels) (c : Call) : Labels :=
  match c.setter with
  | .addLabels given => given.toFinmap ∪ labels
  | .setLabels given => given.toFinmap
  | .setName _ | .setDisplayName _ | .setNodeCount _ => labels

end Call

def lastWritten {α : Type} (written : Call → Option α) (start : α) (cs : List Call) : α :=
  (cs.filterMap written).getLastD start

section Step

variable (b : UpdateInstanceRequestBuilder) (path : String)

@[simp] theorem addPath_inst : (b.addPath runtime path).request.inst = b.request.inst := by
  rw [addPath]
  split <;> rfl

theorem addPath_clearLabels : (b.clearLabels.addPath runtime path).request.fieldMask =
    (b.addPath runtime path).request.fieldMask := by
  by_cases hcovered : runtime.isPathInFieldMask path b.request.fieldMask
  · simp [addPath, clearLabels, hcovered]
  · simp [addPath, clearLabels, hcovered]

theorem nodup_addPath {path : String} (hdot : '.' ∉ path.toList)
    (h : b.request.fieldMask.Nodup) : (b.addPath runtime path).request.fieldMask.Nodup := by
  rw [addPath]
  split
  case isTrue => exact h
  case isFalse hnew =>
    rw [runtime.isPath_iff_mem hdot] at hnew
    simpa [List.nodup_append] using ⟨h, fun p hp heq => hnew (heq ▸ hp)⟩

theorem mem_addPath {path : String} (hdot : '.' ∉ path.toList) (p : String) :
    p ∈ (b.addPath runtime path).request.fieldMask ↔ p ∈ b.request.fieldMask ∨ path = p := by
  rw [addPath]
  split
  case isTrue hold =>
    rw [runtime.isPath_iff_mem hdot] at hold
    constructor
    · exact .inl
    · rintro (hp | rfl)
      · exact hp
      · exact hold
  case isFalse => simp [eq_comm]

theorem insertLabels_eq (labels : Labels) (given : StringMap) :
    insertLabels runtime labels given = labels ∪ given.toFinmap := by
  apply Finmap.ext_lookup
  intro key
  have hgiven : given.toFinmap.lookup key = given.entries.dlookup key := rfl
  rw [insertLabels, runtime.lookup_foldl_insert]
  by_cases hbound : key ∈ labels
  · obtain ⟨value, hvalue⟩ := Finmap.mem_iff.mp hbound
    rw [Finmap.lookup_union_left hbound, hvalue]
    rfl
  · rw [Finmap.lookup_union_right hbound, Finmap.lookup_eq_none.mpr hbound, hgiven]
    rfl

variable (c : Call)

theorem call_inst : (b.call runtime c).request.inst =
    ⟨c.name?.getD b.request.inst.name, c.displayName?.getD b.request.inst.displayName,
      c.nodeCount?.getD b.request.inst.nodeCount, c.keepLabels b.request.inst.labels⟩ := by
  obtain ⟨setter, qualifier⟩ := c
  cases setter with
  | setName name => cases qualifier <;> rfl
  | setDisplayName displayName =>
    cases qualifier <;>
      simp [call, setDisplayNameImpl, Call.name?, Call.displayName?, Call.nodeCount?,
        Call.keepLabels]
  | setNodeCount nodeCount =>
    cases qualifier <;>
      simp [call, setNodeCountImpl, Call.name?, Call.displayName?, Call.nodeCount?,
        Call.keepLabels]
  | addLabels given =>
    cases qualifier <;>
      simp [call, addLabelsImpl, insertLabels_eq, Call.name?, Call.displayName?,
        Call.nodeCount?, Call.keepLabels]
  | setLabels given =>
    cases qualifier <;>
      simp [call, addLabelsImpl, clearLabels, insertLabels_eq, Call.name?, Call.displayName?,
        Call.nodeCount?, Call.keepLabels]

theorem call_fieldMask : (b.call runtime c).request.fieldMask =
    match c.path? with
    | none => b.request.fieldMask
    | some path => (b.addPath runtime path).request.fieldMask := by
  obtain ⟨setter, qualifier⟩ := c
  cases setter with
  | setLabels given => cases qualifier <;> exact addPath_clearLabels runtime b "labels"
  | _ => cases qualifier <;> rfl

theorem dot_not_mem_path {path : String} (h : c.path? = some path) : '.' ∉ path.toList := by
  obtain ⟨setter, qualifier⟩ := c
  cases setter <;> cases h <;> decide

theorem nodup_call (h : b.request.fieldMask.Nodup) :
    (b.call runtime c).request.fieldMask.Nodup := by
  rw [call_fieldMask]
  cases hpath : c.path? with
  | none => exact h
  | some path => exact nodup_addPath runtime b (dot_not_mem_path c hpath) h

theorem mem_call (p : String) : p ∈ (b.call runtime c).request.fieldMask ↔
    p ∈ b.request.fieldMask ∨ c.path? = some p := by
  rw [call_fieldMask]
  cases hpath : c.path? with
  | none => simp
  | some path => simp [mem_addPath runtime b (dot_not_mem_path c hpath)]

end Step

section Run

variable (b : UpdateInstanceRequestBuilder) (cs : List Call)

theorem calls_last {α : Type} (field : UpdateInstanceRequestBuilder → α)
    (written : Call → Option α)
    (hcall : ∀ b c, field (b.call runtime c) = (written c).getD (field b)) :
    field (b.calls runtime cs) = lastWritten written (field b) cs := by
  induction cs generalizing b with
  | nil => rfl
  | cons c cs ih =>
    rw [calls, List.foldl_cons, ← calls, ih, hcall, lastWritten, lastWritten]
    cases hwritten : written c with
    | none => rw [List.filterMap_cons_none hwritten, Option.getD_none]
    | some value =>
      rw [List.filterMap_cons_some hwritten, List.getLastD_cons, Option.getD_some]

theorem calls_labels : (b.calls runtime cs).request.inst.labels =
    cs.foldl Call.keepLabels b.request.inst.labels := by
  induction cs generalizing b with
  | nil => rfl
  | cons c cs ih => rw [calls, List.foldl_cons, ← calls, ih, call_inst, List.foldl_cons]

theorem nodup_calls (h : b.request.fieldMask.Nodup) :
    (b.calls runtime cs).request.fieldMask.Nodup := by
  induction cs generalizing b with
  | nil => exact h
  | cons c cs ih => exact ih _ (nodup_call runtime b c h)

theorem mem_calls (p : String) : p ∈ (b.calls runtime cs).request.fieldMask ↔
    p ∈ b.request.fieldMask ∨ ∃ c ∈ cs, c.path? = some p := by
  induction cs generalizing b with
  | nil => simp [calls]
  | cons c cs ih =>
    rw [calls, List.foldl_cons, ← calls, ih, mem_call]
    simp [or_assoc]

end Run

/-- What is built from an instance: the fields as they were last set, the labels with the keys that
are still free bound by `AddLabels` and all replaced by `SetLabels`, and the paths of what was set,
once each. -/
theorem build_calls (start : Protobuf.Instance) (cs : List Call) :
    let request := ((ofProto start).calls runtime cs).build
    request.inst.name = lastWritten Call.name? start.name cs ∧
    request.inst.displayName = lastWritten Call.displayName? start.displayName cs ∧
    request.inst.nodeCount = lastWritten Call.nodeCount? start.nodeCount cs ∧
    request.inst.labels = cs.foldl Call.keepLabels start.labels ∧
    ∀ path, request.fieldMask.count path = if ∃ c ∈ cs, c.path? = some path then 1 else 0 := by
  have name := calls_last runtime (ofProto start) cs (·.request.inst.name) Call.name?
    fun b c => congrArg (·.name) (call_inst runtime b c)
  have displayName := calls_last runtime (ofProto start) cs (·.request.inst.displayName)
    Call.displayName? fun b c => congrArg (·.displayName) (call_inst runtime b c)
  have nodeCount := calls_last runtime (ofProto start) cs (·.request.inst.nodeCount)
    Call.nodeCount? fun b c => congrArg (·.nodeCount) (call_inst runtime b c)
  refine ⟨name, displayName, nodeCount, calls_labels runtime (ofProto start) cs, ?_⟩
  intro path
  have hnodup : ((ofProto start).calls runtime cs).request.fieldMask.Nodup :=
    nodup_calls runtime _ cs List.nodup_nil
  have hmem := mem_calls runtime (ofProto start) cs path
  rw [build]
  split
  case isTrue hset => exact List.count_eq_one_of_mem hnodup (hmem.mpr (.inr hset))
  case isFalse hnever =>
    refine List.count_eq_zero.mpr fun hpath => ?_
    obtain hstart | hset := hmem.mp hpath
    · exact absurd hstart List.not_mem_nil
    · exact hnever hset

/-- The labels `key: old`, to which `key: new` is added. -/
theorem addLabels_keeps :
    let start : Protobuf.Instance := ⟨"name", "", 1, Finmap.singleton "key" "old"⟩
    let cs : List Call := [⟨.addLabels (AList.singleton "key" "new"), .lvalue⟩]
    let request := ((ofProto start).calls .documented cs).build
    request.inst.labels.lookup "key" = some "old" ∧
      request.inst.labels ≠ cs.foldl Call.overwriteLabels start.labels := by
  intro start cs request
  have hkept : request.inst.labels.lookup "key" = some "old" := by decide
  have hgiven : (cs.foldl Call.overwriteLabels start.labels).lookup "key" = some "new" := by decide
  refine ⟨hkept, ?_⟩
  intro hsame
  rw [hsame, hgiven] at hkept
  exact absurd hkept (by decide)

end UpdateInstanceRequestBuilder

end SpannerClient
