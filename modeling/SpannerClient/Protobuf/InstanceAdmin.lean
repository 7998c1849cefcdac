import Mathlib.Data.Finmap

namespace SpannerClient.Protobuf

abbrev Labels := Finmap fun _ : String => String

structure Instance where
  name : String
  displayName : String
  nodeCount : Int
  labels : Labels

structure UpdateInstanceRequest where
  inst : Instance
  fieldMask : List String

/-- `Map::insert` and `FieldMaskUtil::IsPathInFieldMask`, as far as they are documented. -/
structure Runtime where
  insert : Labels → String → String → Labels
  isPathInFieldMask : String → List String → Bool
  /-- A key that is bound is left as it is. -/
  insert_of_mem : ∀ {labels : Labels} {key value : String}, key ∈ labels →
    insert labels key value = labels
  insert_of_notMem : ∀ {labels : Labels} {key value : String}, key ∉ labels →
    insert labels key value = Finmap.insert key value labels
  /-- A path covers itself and the paths below it. -/
  isPath_iff : ∀ {path : String} {mask : List String}, isPathInFieldMask path mask = true ↔
    ∃ covering ∈ mask, covering = path ∨ covering.toList ++ ['.'] <+: path.toList

namespace Runtime

def documented : Runtime where
  insert labels key value := if key ∈ labels then labels else Finmap.insert key value labels
  isPathInFieldMask path mask :=
    mask.any fun covering => covering == path || (covering.toList ++ ['.']).isPrefixOf path.toList
  insert_of_mem h := if_pos h
  insert_of_notMem h := if_neg h
  isPath_iff := by simp

variable (runtime : Runtime)

theorem isPath_iff_mem {path : String} {mask : List String} (h : '.' ∉ path.toList) :
    runtime.isPathInFieldMask path mask = true ↔ path ∈ mask := by
  rw [runtime.isPath_iff]
  constructor
  · rintro ⟨covering, hmem, rfl | hbelow⟩
    · exact hmem
    · exact absurd (hbelow.subset (by simp)) h
  · intro hmem
    exact ⟨path, hmem, .inl rfl⟩

theorem lookup_foldl_insert (entries : List (Σ _ : String, String)) (labels : Labels)
    (key : String) :
    (entries.foldl (fun labels entry => runtime.insert labels entry.1 entry.2) labels).lookup key =
      (labels.lookup key).or (entries.dlookup key) := by
  induction entries generalizing labels with
  | nil => simp
  | cons entry entries ih =>
    obtain ⟨key', value⟩ := entry
    rw [List.foldl_cons, ih]
    by_cases hbound : key' ∈ labels
    · rw [runtime.insert_of_mem hbound]
      by_cases hkey : key' = key
      · subst hkey
        obtain ⟨old, hold⟩ := Finmap.mem_iff.mp hbound
        simp [hold]
      · rw [List.dlookup_cons_ne _ _ (Ne.symm hkey)]
    · rw [runtime.insert_of_notMem hbound]
      by_cases hkey : key' = key
      · subst hkey
        rw [Finmap.lookup_insert, Finmap.lookup_eq_none.mpr hbound, List.dlookup_cons_eq]
        rfl
      · rw [Finmap.lookup_insert_of_ne _ (Ne.symm hkey), List.dlookup_cons_ne _ _ (Ne.symm hkey)]

end Runtime

end SpannerClient.Protobuf
