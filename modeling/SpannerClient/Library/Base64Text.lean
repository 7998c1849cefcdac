import SpannerClient.Library.Bits

/-! Base64 text with the standard alphabet and padding.  The bits of the octets, with as many zeros
after them as the padding asks for, are those of the symbols before it. -/

namespace SpannerClient.Base64Text

open Bits

def alphabet : List Char :=
  ['A', 'B', 'C', 'D', 'E', 'F', 'G', 'H', 'I', 'J', 'K', 'L', 'M', 'N', 'O', 'P', 'Q', 'R', 'S',
    'T', 'U', 'V', 'W', 'X', 'Y', 'Z', 'a', 'b', 'c', 'd', 'e', 'f', 'g', 'h', 'i', 'j', 'k', 'l',
    'm', 'n', 'o', 'p', 'q', 'r', 's', 't', 'u', 'v', 'w', 'x', 'y', 'z', '0', '1', '2', '3', '4',
    '5', '6', '7', '8', '9', '+', '/']

def symbol (sextet : Nat) : Char := alphabet.getD sextet '='

def IsTextOf (octets : List UInt8) (text : List Char) : Prop :=
  ∃ sextets padding, text = List.map symbol sextets ++ List.replicate padding '=' ∧
    (∀ s ∈ sextets, s < 2 ^ 6) ∧ padding < 3 ∧ 4 ∣ text.length ∧
    words 6 sextets = words 8 (octets.map UInt8.toNat) ++ List.replicate (2 * padding) false

namespace IsTextOf

variable {octets : List UInt8} {text text' : List Char}

theorem nil : IsTextOf [] [] := ⟨[], 0, by simp⟩

theorem last {sextets : List Nat} {padding : Nat} (hsextets : ∀ s ∈ sextets, s < 2 ^ 6)
    (hpadding : padding < 3) (hlength : sextets.length + padding = 4)
    (hbits : words 6 (sextets ++ List.replicate padding 0) =
      words 8 (octets.map UInt8.toNat ++ List.replicate padding 0)) :
    IsTextOf octets (List.map symbol sextets ++ List.replicate padding '=') := by
  refine ⟨sextets, padding, rfl, hsextets, hpadding, by simp [hlength], ?_⟩
  rw [words_append, words_append, words_replicate_zero, words_replicate_zero,
    show 8 * padding = 2 * padding + 6 * padding by omega, ← List.replicate_append_replicate,
    ← List.append_assoc] at hbits
  exact List.append_cancel_right hbits

theorem append {quantum : List UInt8} {sextets : List Nat} (hsextets : ∀ s ∈ sextets, s < 2 ^ 6)
    (hlength : sextets.length = 4)
    (hbits : words 6 sextets = words 8 (quantum.map UInt8.toNat)) (h : IsTextOf octets text) :
    IsTextOf (quantum ++ octets) (List.map symbol sextets ++ text) := by
  obtain ⟨rest, padding, rfl, hrest, hpadding, hmultiple, hwords⟩ := h
  refine ⟨sextets ++ rest, padding, by simp, ?_, hpadding, ?_, ?_⟩
  · intro s hs
    exact (List.mem_append.mp hs).elim (hsextets s) (hrest s)
  · rw [List.length_append, List.length_map, hlength]
    exact Nat.dvd_add (Nat.dvd_refl 4) hmultiple
  · rw [List.map_append, words_append, words_append, hbits, hwords, List.append_assoc]

theorem unique (h : IsTextOf octets text) (h' : IsTextOf octets text') : text = text' := by
  obtain ⟨sextets, padding, rfl, hsextets, hpadding, hmultiple, hwords⟩ := h
  obtain ⟨sextets', padding', rfl, hsextets', hpadding', hmultiple', hwords'⟩ := h'
  have hbits := congrArg List.length hwords
  have hbits' := congrArg List.length hwords'
  simp only [List.length_append, length_words, List.length_map, List.length_replicate]
    at hbits hbits' hmultiple hmultiple'
  obtain rfl : padding = padding' := by omega
  rw [words_inj (by decide) hsextets hsextets' (hwords.trans hwords'.symm)]

end IsTextOf

end SpannerClient.Base64Text
