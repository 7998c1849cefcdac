import SpannerClient.Bytes
import SpannerClient.Library.Base64Text

namespace SpannerClient

namespace Base64

open Base64Text Bits

theorem symbol_eq {i : Nat} (h : i < 64) : symbol i = indexToChar i := by
  have hall : ∀ i < 64, symbol i = indexToChar i := by decide
  exact hall i h

theorem toNat_lt_of_charToIndex {c : Char} (h : charToIndexExcessOne c ≠ 0) : c.toNat < 128 := by
  have hle : ∀ {d : Char}, c ≤ d → c.toNat ≤ d.toNat := fun hcd => hcd
  rw [charToIndexExcessOne] at h
  split_ifs at h with hupper hlower hdigit hplus hslash
  · exact Nat.lt_of_le_of_lt (hle hupper.2) (by decide)
  · exact Nat.lt_of_le_of_lt (hle hlower.2) (by decide)
  · exact Nat.lt_of_le_of_lt (hle hdigit.2) (by decide)
  · rw [hplus]
    decide
  · rw [hslash]
    decide
  · exact absurd rfl h

theorem exists_index {c : Char} (h : charToIndexExcessOne c ≠ 0) :
    ∃ i < 64, c = indexToChar i := by
  have hall : ∀ n < 128, charToIndexExcessOne (Char.ofNat n) ≠ 0 →
      charToIndexExcessOne (Char.ofNat n) - 1 < 64 ∧
        Char.ofNat n = indexToChar (charToIndexExcessOne (Char.ofNat n) - 1) := by decide
  have hc := hall c.toNat (toNat_lt_of_charToIndex h)
  rw [Char.ofNat_toNat] at hc
  exact ⟨_, (hc h).1, (hc h).2⟩

theorem shiftLeft_or {a b k : Nat} (h : b < 2 ^ k) : a <<< k ||| b = a * 2 ^ k + b := by
  rw [← Nat.shiftLeft_add_eq_or_of_lt h, Nat.shiftLeft_eq]

theorem octet_eq {n : Nat} {b : UInt8} (h : n % 256 = b.toNat) : UInt8.ofNat n = b := by
  rw [← UInt8.toNat_inj, UInt8.toNat_ofNat']
  exact h

def quantum (b0 b1 b2 : UInt8) : Nat := b0.toNat * 2 ^ 16 + b1.toNat * 2 ^ 8 + b2.toNat

def sextets (v : Nat) : List Nat := [v / 2 ^ 18, v / 2 ^ 12 % 64, v / 2 ^ 6 % 64, v % 64]

theorem quantum_lt (b0 b1 b2 : UInt8) : quantum b0 b1 b2 < 2 ^ 24 := by
  have h0 := b0.toNat_lt
  have h1 := b1.toNat_lt
  have h2 := b2.toNat_lt
  rw [quantum]
  omega

theorem quantum_two (b0 b1 : UInt8) :
    quantum b0 b1 0 = b0.toNat * 2 ^ 16 + b1.toNat * 2 ^ 8 := by
  rw [quantum, UInt8.toNat_zero, Nat.add_zero]

theorem quantum_one (b0 : UInt8) : quantum b0 0 0 = b0.toNat * 2 ^ 16 := by
  rw [quantum, UInt8.toNat_zero, Nat.zero_mul, Nat.add_zero]

theorem sextets_lt {v : Nat} (h : v < 2 ^ 24) : ∀ s ∈ sextets v, s < 2 ^ 6 := by
  simp only [sextets, List.mem_cons, List.not_mem_nil, or_false]
  rintro s (rfl | rfl | rfl | rfl) <;> omega

theorem words_sextets (v : Nat) : words 6 (sextets v) = word 24 v := by
  have hmod : ∀ n, word 6 (n % 64) = word 6 n := fun n => word_mod (Nat.le_refl 6) n
  simp only [sextets, words_cons, words_nil, hmod, List.append_nil]
  rw [show 24 = 6 + 18 from rfl, word_append, show 18 = 6 + 12 from rfl, word_append,
    show 12 = 6 + 6 from rfl, word_append]

theorem words_quantum (b0 b1 b2 : UInt8) :
    words 6 (sextets (quantum b0 b1 b2)) = words 8 ([b0, b1, b2].map UInt8.toNat) := by
  have hb1 := b1.toNat_lt
  have hb2 := b2.toNat_lt
  have h0 : quantum b0 b1 b2 / 2 ^ 16 = b0.toNat := by rw [quantum]; omega
  have h1 : quantum b0 b1 b2 / 2 ^ 8 % 2 ^ 8 = b1.toNat := by rw [quantum]; omega
  have h2 : quantum b0 b1 b2 % 2 ^ 8 = b2.toNat := by rw [quantum]; omega
  simp only [List.map_cons, List.map_nil, words_cons, words_nil, List.append_nil]
  rw [← h0, ← h1, ← h2, word_mod (Nat.le_refl 8), word_mod (Nat.le_refl 8), words_sextets,
    show 24 = 8 + 16 from rfl, word_append, show 16 = 8 + 8 from rfl, word_append]

theorem map_indexToChar {ss : List Nat} (h : ∀ s ∈ ss, s < 2 ^ 6) :
    ss.map indexToChar = ss.map symbol :=
  List.map_congr_left fun s hs => (symbol_eq (h s hs)).symm

theorem isTextOf_encode (octets : List UInt8) : IsTextOf octets (encode octets) := by
  induction octets using encode.induct with
  | case1 b0 b1 b2 rest ih =>
    have hsextets := sextets_lt (quantum_lt b0 b1 b2)
    have hflush : flush b0 b1 b2 = (sextets (quantum b0 b1 b2)).map symbol :=
      map_indexToChar hsextets
    rw [encode, hflush]
    exact .append hsextets rfl (words_quantum b0 b1 b2) ih
  | case2 b0 b1 =>
    have hsextets := sextets_lt (quantum_lt b0 b1 0)
    have hv := quantum_two b0 b1
    have hlast : quantum b0 b1 0 % 64 = 0 := by omega
    have hwords := words_quantum b0 b1 0
    rw [sextets, hlast] at hwords
    have htext : flushAndPadTwo b0 b1 =
        ((sextets (quantum b0 b1 0)).take 3).map symbol ++ List.replicate 1 '=' := by
      rw [← map_indexToChar fun s hs => hsextets s (List.mem_of_mem_take hs), sextets, hv]
      rfl
    rw [encode, htext]
    exact .last (fun s hs => hsextets s (List.mem_of_mem_take hs)) (by decide) rfl hwords
  | case3 b0 =>
    have hsextets := sextets_lt (quantum_lt b0 0 0)
    have hv := quantum_one b0
    have hlast : quantum b0 0 0 % 64 = 0 ∧ quantum b0 0 0 / 2 ^ 6 % 64 = 0 := by omega
    have hwords := words_quantum b0 0 0
    rw [sextets, hlast.1, hlast.2] at hwords
    have htext : flushAndPadOne b0 =
        ((sextets (quantum b0 0 0)).take 2).map symbol ++ List.replicate 2 '=' := by
      rw [← map_indexToChar fun s hs => hsextets s (List.mem_of_mem_take hs), sextets, hv]
      rfl
    rw [encode, htext]
    exact .last (fun s hs => hsextets s (List.mem_of_mem_take hs)) (by decide) rfl hwords
  | case4 => exact .nil

theorem exists_octet {n : Nat} (h : n < 256) : ∃ b : UInt8, b.toNat = n :=
  ⟨UInt8.ofNat n, by rw [UInt8.toNat_ofNat', Nat.mod_eq_of_lt h]⟩

theorem exists_quantum {i0 i1 i2 i3 : Nat} (h0 : i0 < 64) (h1 : i1 < 64) (h2 : i2 < 64)
    (h3 : i3 < 64) : ∃ b0 b1 b2, sextets (quantum b0 b1 b2) = [i0, i1, i2, i3] ∧
      (i2 % 4 = 0 → i3 = 0 → b2 = 0) ∧ (i1 % 16 = 0 → i2 = 0 → b1 = 0) := by
  obtain ⟨b0, hb0⟩ := exists_octet (n := i0 * 4 + i1 / 16) (by omega)
  obtain ⟨b1, hb1⟩ := exists_octet (n := i1 % 16 * 16 + i2 / 4) (by omega)
  obtain ⟨b2, hb2⟩ := exists_octet (n := i2 % 4 * 64 + i3) (by omega)
  have hv : quantum b0 b1 b2 = ((i0 * 64 + i1) * 64 + i2) * 64 + i3 := by
    rw [quantum, hb0, hb1, hb2]
    omega
  refine ⟨b0, b1, b2, ?_, ?_, ?_⟩
  · rw [hv, sextets]
    simp only [List.cons.injEq, and_true]
    omega
  · intro hi2 hi3
    rw [← UInt8.toNat_inj, hb2, hi2, hi3]
    rfl
  · intro hi1 hi2
    rw [← UInt8.toNat_inj, hb1, hi1, hi2]
    rfl

theorem exists_flush {i0 i1 i2 i3 : Nat} (h0 : i0 < 64) (h1 : i1 < 64) (h2 : i2 < 64)
    (h3 : i3 < 64) : ∃ b0 b1 b2, flush b0 b1 b2 = [i0, i1, i2, i3].map indexToChar := by
  obtain ⟨b0, b1, b2, hsextets, -⟩ := exists_quantum h0 h1 h2 h3
  exact ⟨b0, b1, b2, congrArg (List.map indexToChar) hsextets⟩

theorem exists_flushAndPadTwo {i0 i1 i2 : Nat} (h0 : i0 < 64) (h1 : i1 < 64) (h2 : i2 < 64)
    (hbits : i2 % 4 = 0) : ∃ b0 b1,
      flushAndPadTwo b0 b1 = [i0, i1, i2].map indexToChar ++ [kPadding] := by
  have hpadding : 0 < 64 := by decide
  obtain ⟨b0, b1, b2, hsextets, hzero, -⟩ := exists_quantum h0 h1 h2 hpadding
  rw [hzero hbits rfl, sextets, quantum_two] at hsextets
  obtain ⟨rfl, rfl, rfl, -⟩ := by simpa only [List.cons.injEq] using hsextets
  exact ⟨b0, b1, rfl⟩

theorem exists_flushAndPadOne {i0 i1 : Nat} (h0 : i0 < 64) (h1 : i1 < 64)
    (hbits : i1 % 16 = 0) : ∃ b0,
      flushAndPadOne b0 = [i0, i1].map indexToChar ++ [kPadding, kPadding] := by
  have hpadding : 0 < 64 := by decide
  obtain ⟨b0, b1, b2, hsextets, hzero, hzero'⟩ := exists_quantum h0 h1 hpadding hpadding
  rw [hzero rfl rfl, hzero' hbits rfl, sextets, quantum_one] at hsextets
  obtain ⟨rfl, rfl, -⟩ := by simpa only [List.cons.injEq] using hsextets
  exact ⟨b0, rfl⟩

theorem exists_index_of_ne {c : Char} (h : charToIndexExcessOne c ≠ 0) :
    ∃ i < 64, c = indexToChar i ∧ charToIndexExcessOne c - 1 = i := by
  obtain ⟨i, hi, rfl⟩ := exists_index h
  exact ⟨i, hi, rfl, by rw [charToIndex_indexToChar hi, Nat.add_sub_cancel]⟩

theorem exists_encode {text : List Char} (h : unread text = []) :
    ∃ octets, encode octets = text := by
  fun_induction unread text with
  | case1 | case2 | case4 | case6 => cases h
  | case3 p0 p1 rest i0 i1 hindex hbits =>
    subst h
    obtain ⟨hi0, hi1⟩ := not_or.mp hindex
    obtain ⟨j0, hj0, rfl, -⟩ := exists_index_of_ne hi0
    obtain ⟨j1, hj1, rfl, hsub⟩ := exists_index_of_ne hi1
    obtain ⟨b0, hflush⟩ := exists_flushAndPadOne hj0 hj1 (hsub ▸ not_not.mp hbits)
    exact ⟨[b0], hflush⟩
  | case5 p0 p1 p2 rest i0 i1 i2 hindex hne hbits =>
    subst h
    obtain ⟨hi0, hi1⟩ := not_or.mp hindex
    obtain ⟨hi2, hbits⟩ := not_or.mp hbits
    obtain ⟨j0, hj0, rfl, -⟩ := exists_index_of_ne hi0
    obtain ⟨j1, hj1, rfl, -⟩ := exists_index_of_ne hi1
    obtain ⟨j2, hj2, rfl, hsub⟩ := exists_index_of_ne hi2
    obtain ⟨b0, b1, hflush⟩ := exists_flushAndPadTwo hj0 hj1 hj2 (hsub ▸ not_not.mp hbits)
    exact ⟨[b0, b1], hflush⟩
  | case7 p0 p1 p2 p3 rest i0 i1 i2 i3 hindex hne hindex' ih =>
    obtain ⟨hi0, hi1⟩ := not_or.mp hindex
    obtain ⟨hi2, hi3⟩ := not_or.mp hindex'
    obtain ⟨j0, hj0, rfl, -⟩ := exists_index_of_ne hi0
    obtain ⟨j1, hj1, rfl, -⟩ := exists_index_of_ne hi1
    obtain ⟨j2, hj2, rfl, -⟩ := exists_index_of_ne hi2
    obtain ⟨j3, hj3, rfl, -⟩ := exists_index_of_ne hi3
    obtain ⟨b0, b1, b2, hflush⟩ := exists_flush hj0 hj1 hj2 hj3
    obtain ⟨octets, rfl⟩ := ih h
    exact ⟨b0 :: b1 :: b2 :: octets, by rw [encode, hflush]; rfl⟩
  | case8 =>
    subst h
    exact ⟨[], rfl⟩

end Base64

namespace Bytes

open Base64 Base64Text

namespace Decoder

theorem collect_nil (pos : List Char) : collect ⟨pos, []⟩ = [] := by
  rw [collect, dif_pos rfl]

theorem collect_last (pos : List Char) (octet : UInt8) :
    collect ⟨pos, [octet]⟩ = octet :: collect (fill ⟨pos, []⟩) := by
  rw [collect, dif_neg (List.cons_ne_nil _ _)]
  rfl

theorem collect_cons (pos : List Char) (octet next : UInt8) (buf : List UInt8) :
    collect ⟨pos, octet :: next :: buf⟩ = octet :: collect ⟨pos, next :: buf⟩ := by
  rw [collect, dif_neg (List.cons_ne_nil _ _)]
  rfl

theorem first_octet (b0 b1 b2 : UInt8) : UInt8.ofNat ((quantum b0 b1 b2 / 2 ^ 18) <<< 2 |||
    (quantum b0 b1 b2 / 2 ^ 12 % 64) >>> 4) = b0 := by
  have h0 := b0.toNat_lt
  have h1 := b1.toNat_lt
  have h2 := b2.toNat_lt
  apply octet_eq
  rw [Nat.shiftRight_eq_div_pow, shiftLeft_or (by omega), quantum]
  omega

theorem second_octet (b0 b1 b2 : UInt8) : UInt8.ofNat ((quantum b0 b1 b2 / 2 ^ 12 % 64) <<< 4 |||
    (quantum b0 b1 b2 / 2 ^ 6 % 64) >>> 2) = b1 := by
  have h1 := b1.toNat_lt
  have h2 := b2.toNat_lt
  apply octet_eq
  rw [Nat.shiftRight_eq_div_pow, shiftLeft_or (by omega), quantum]
  omega

theorem third_octet (b0 b1 b2 : UInt8) : UInt8.ofNat ((quantum b0 b1 b2 / 2 ^ 6 % 64) <<< 6 |||
    quantum b0 b1 b2 % 64) = b2 := by
  have h2 := b2.toNat_lt
  apply octet_eq
  rw [shiftLeft_or (by omega), quantum]
  omega

theorem index_of_sextet {v : Nat} (h : v < 64) : charToIndexExcessOne (indexToChar v) - 1 = v := by
  rw [charToIndex_indexToChar h, Nat.add_sub_cancel]

theorem fill_flush (b0 b1 b2 : UInt8) (rest : List Char) :
    fill ⟨flush b0 b1 b2 ++ rest, []⟩ = ⟨rest, [b0, b1, b2]⟩ := by
  have hlt := quantum_lt b0 b1 b2
  have hlast := Nat.mod_lt (quantum b0 b1 b2) (show 0 < 64 by decide)
  change fill ⟨(sextets (quantum b0 b1 b2)).map indexToChar ++ rest, []⟩ = _
  simp only [sextets, List.map_cons, List.map_nil, List.cons_append, List.nil_append, fill]
  rw [if_neg (indexToChar_ne_kPadding hlast), index_of_sextet (by omega),
    index_of_sextet (by omega), index_of_sextet (by omega), index_of_sextet hlast, first_octet,
    second_octet, third_octet]

theorem fill_two (b0 b1 : UInt8) : fill ⟨flushAndPadTwo b0 b1, []⟩ = ⟨[], [b0, b1]⟩ := by
  have hlt := quantum_lt b0 b1 0
  have hfirst := first_octet b0 b1 0
  have hsecond := second_octet b0 b1 0
  rw [quantum_two] at hlt hfirst hsecond
  simp only [flushAndPadTwo, fill]
  rw [if_pos trivial, if_neg (indexToChar_ne_kPadding (by omega)), index_of_sextet (by omega),
    index_of_sextet (by omega), index_of_sextet (by omega), hfirst, hsecond]

theorem fill_one (b0 : UInt8) : fill ⟨flushAndPadOne b0, []⟩ = ⟨[], [b0]⟩ := by
  have hlt := quantum_lt b0 0 0
  have hfirst := first_octet b0 0 0
  rw [quantum_one] at hlt hfirst
  simp only [flushAndPadOne, fill]
  rw [if_pos trivial, if_pos trivial, index_of_sextet (by omega), index_of_sextet (by omega),
    hfirst]

theorem collect_encode (octets : List UInt8) : (begin (encode octets)).collect = octets := by
  induction octets using encode.induct with
  | case1 b0 b1 b2 rest ih =>
    rw [encode, begin, fill_flush, collect_cons, collect_cons, collect_last, ← begin, ih]
  | case2 b0 b1 => rw [encode, begin, fill_two, collect_cons, collect_last, fill, collect_nil]
  | case3 b0 => rw [encode, begin, fill_one, collect_last, fill, collect_nil]
  | case4 => rw [encode, begin, fill, collect_nil]

end Decoder

theorem get_ofOctets (octets : List UInt8) : (ofOctets octets).get = octets := by
  rw [get, ofOctets, String.toList_ofList, Decoder.collect_encode]

theorem ofOctets_get (b : Bytes) : ofOctets b.get = b := by
  obtain ⟨octets, hoctets⟩ := exists_encode b.canonical
  have hb : ofOctets octets = b := by
    obtain ⟨base64Rep, canonical⟩ := b
    simp only [ofOctets, mk.injEq]
    rw [hoctets, String.ofList_toList]
  rw [← hb, get_ofOctets]

theorem bytesFromBase64_eq_ok {s : String} {b : Bytes} :
    bytesFromBase64 s = .ok b ↔ b.base64Rep = s := by
  constructor
  · intro h
    rw [bytesFromBase64] at h
    split at h
    · cases h
      rfl
    · cases h
  · rintro rfl
    exact bytesFromBase64_toBase64 b

theorem equal_iff {a b : Bytes} : a.equal b = true ↔ a.get = b.get := by
  rw [equal, beq_iff_eq]
  constructor
  · intro h
    rw [get, get, h]
  · intro h
    rw [← ofOctets_get a, ← ofOctets_get b, h]

theorem isTextOf_iff {s : String} {octets : List UInt8} :
    IsTextOf octets s.toList ↔
      ∃ b, bytesFromBase64 s = .ok b ∧ b.get = octets ∧ bytesToBase64 (ofOctets octets) = s := by
  constructor
  · intro h
    have htext : (ofOctets octets).base64Rep = s := by
      change String.ofList (encode octets) = s
      rw [(isTextOf_encode octets).unique h, String.ofList_toList]
    exact ⟨ofOctets octets, bytesFromBase64_eq_ok.mpr htext, get_ofOctets octets, htext⟩
  · rintro ⟨b, -, -, rfl⟩
    rw [bytesToBase64, ofOctets, String.toList_ofList]
    exact isTextOf_encode octets

/-- Octets and canonical base64 text are in bijection, and `Bytes` are equal when their octets
are. -/
theorem base64_bijection :
    (∀ octets : List UInt8, (ofOctets octets).get = octets ∧
      bytesFromBase64 (bytesToBase64 (ofOctets octets)) = .ok (ofOctets octets)) ∧
    (∀ s : String, (∃ b, bytesFromBase64 s = .ok b) ↔ ∃ octets, IsTextOf octets s.toList) ∧
    (∀ (s : String) (octets : List UInt8), IsTextOf octets s.toList ↔
      ∃ b, bytesFromBase64 s = .ok b ∧ b.get = octets ∧ bytesToBase64 (ofOctets octets) = s) ∧
    ∀ a b : Bytes, a.equal b = true ↔ a.get = b.get := by
  refine ⟨?_, ?_, fun s octets => isTextOf_iff, fun a b => equal_iff⟩
  · intro octets
    exact ⟨get_ofOctets octets, bytesFromBase64_toBase64 _⟩
  · intro s
    constructor
    · rintro ⟨b, hb⟩
      refine ⟨b.get, isTextOf_iff.mpr ⟨b, hb, rfl, ?_⟩⟩
      rw [ofOctets_get]
      exact bytesFromBase64_eq_ok.mp hb
    · rintro ⟨octets, h⟩
      obtain ⟨b, hb, -⟩ := isTextOf_iff.mp h
      exact ⟨b, hb⟩

end Bytes

end SpannerClient
