import Mathlib.Data.List.Basic
import RunAudit.Text.Utf8

/-!
# The octets of a text

The octets of a text are those of its characters, one behind the other (`toList_toUTF8`), and spell the text again
(`decode_toUTF8`). The octets of one character take the machine `Need` from their first octet to its start and no
further (`exists_completes`).
-/

namespace RunAudit.Text.Utf8

/-! ## Octets and texts -/

theorem toList_loop (octets : ByteArray) (i : Nat) (before : List UInt8) :
    ByteArray.toList.loop octets i before = before.reverse ++ octets.data.toList.drop i := by
  fun_induction ByteArray.toList.loop octets i before with
  | case1 i before h ih =>
    have hlength : i < octets.data.toList.length := by simpa using h
    have hget : octets.get! i = octets.data.toList[i] := by
      show octets.data[i]! = _
      rw [getElem!_pos octets.data i h, Array.getElem_toList]
    rw [ih, List.drop_eq_getElem_cons hlength, hget, List.reverse_cons, List.append_assoc, List.singleton_append]
  | case2 i before h =>
    rw [List.drop_eq_nil_of_le (by simpa using Nat.le_of_not_lt h), List.append_nil]

/-- **The octets of a text** are those of its characters. -/
theorem toList_toUTF8 (text : String) : text.toUTF8.toList = text.toList.flatMap String.utf8EncodeChar := by
  rw [ByteArray.toList, toList_loop, List.drop_zero, List.reverse_nil, List.nil_append, String.toUTF8_eq_toByteArray,
    ← String.utf8Encode_toList, List.utf8Encode, List.data_toByteArray]

theorem fromUTF8?_toUTF8 (text : String) : String.fromUTF8? text.toUTF8 = some text := by
  rw [String.fromUTF8?, dif_pos (show text.toUTF8.IsValidUTF8 from text.isValidUTF8)]
  rfl

/-- **The octets of a text spell it.** -/
theorem decode_toUTF8 (text : String) : decode text.toUTF8 = .ok text := by
  rw [decode, fromUTF8?_toUTF8]

/-! ## The octets of a character -/

/-- Octets that take the machine to its start, and not before the last of them. -/
inductive Completes : Need → List UInt8 → Prop
  | last {need : Need} {b : UInt8} : need.step b = some .start → Completes need [b]
  | next {need after : Need} {b : UInt8} {rest : List UInt8} : need.step b = some after → after ≠ .start →
      Completes after rest → Completes need (b :: rest)

theorem toNat_ofNat {n : Nat} (h : n < 256) : (UInt8.ofNat n).toNat = n := by
  rw [UInt8.toNat_ofNat', Nat.mod_eq_of_lt h]

theorem within_ofNat {low high : UInt8} {n : Nat} (h : n < 256) (hl : low.toNat ≤ n) (hh : n ≤ high.toNat)
    (next : Need) : Need.within low high (UInt8.ofNat n) next = some next := by
  rw [Need.within, if_pos]
  rw [UInt8.le_iff_toNat_le, UInt8.le_iff_toNat_le, toNat_ofNat h]
  exact ⟨hl, hh⟩

theorem ofLead_ofNat {n : Nat} (h : n < 256) : Need.ofLead (UInt8.ofNat n) =
    if n < 0x80 then some .start
    else if n < 0xC2 then none
    else if n < 0xE0 then some .tail1
    else if n = 0xE0 then some .afterE0
    else if n = 0xED then some .afterED
    else if n < 0xF0 then some .tail2
    else if n = 0xF0 then some .afterF0
    else if n < 0xF4 then some .tail3
    else if n = 0xF4 then some .afterF4
    else none := by
  simp only [Need.ofLead, UInt8.lt_iff_toNat_lt, ← UInt8.toNat_inj, toNat_ofNat h]
  rfl

/-- An octet that goes on with a character. -/
def tail (k : Nat) : UInt8 := UInt8.ofNat (k % 64 + 128)

theorem completes_tail1 (k : Nat) : Completes .tail1 [tail k] :=
  .last (within_ofNat (by omega) (show 128 ≤ _ by omega) (show _ ≤ 191 by omega) _)

theorem completes_tail2 (j k : Nat) : Completes .tail2 [tail j, tail k] :=
  .next (within_ofNat (by omega) (show 128 ≤ _ by omega) (show _ ≤ 191 by omega) _) (by decide) (completes_tail1 k)

theorem completes_tail3 (i j k : Nat) : Completes .tail3 [tail i, tail j, tail k] :=
  .next (within_ofNat (by omega) (show 128 ≤ _ by omega) (show _ ≤ 191 by omega) _) (by decide) (completes_tail2 j k)

theorem completes_two {v : Nat} (h : 0x80 ≤ v) (h' : v < 0x800) :
    ∃ need, Need.ofLead (UInt8.ofNat (v / 64 % 32 + 192)) = some need ∧ Completes need [tail v] := by
  refine ⟨.tail1, ?_, completes_tail1 v⟩
  rw [ofLead_ofNat (by omega), if_neg (by omega), if_neg (by omega), if_pos (by omega)]

theorem completes_three {v : Nat} (h : 0x800 ≤ v) (h' : v < 0x10000) (hs : v < 0xD800 ∨ 0xDFFF < v) :
    ∃ need, Need.ofLead (UInt8.ofNat (v / 4096 % 16 + 224)) = some need ∧ Completes need [tail (v / 64), tail v] := by
  rw [ofLead_ofNat (by omega), if_neg (by omega), if_neg (by omega), if_neg (by omega)]
  -- the first and the last octet of the surrogates' range leave less room for the second octet
  by_cases hfirst : v / 4096 = 0
  · rw [if_pos (by omega)]
    exact ⟨_, rfl, .next (within_ofNat (by omega) (show 160 ≤ _ by omega) (show _ ≤ 191 by omega) _) (by decide)
      (completes_tail1 v)⟩
  · rw [if_neg (by omega)]
    by_cases hsurrogate : v / 4096 = 13
    · rw [if_pos (by omega)]
      exact ⟨_, rfl, .next (within_ofNat (by omega) (show 128 ≤ _ by omega) (show _ ≤ 159 by omega) _) (by decide)
        (completes_tail1 v)⟩
    · rw [if_neg (by omega), if_pos (by omega)]
      exact ⟨_, rfl, completes_tail2 (v / 64) v⟩

theorem completes_four {v : Nat} (h : 0x10000 ≤ v) (h' : v < 0x110000) :
    ∃ need, Need.ofLead (UInt8.ofNat (v / 262144 % 8 + 240)) = some need ∧
      Completes need [tail (v / 4096), tail (v / 64), tail v] := by
  rw [ofLead_ofNat (by omega), if_neg (by omega), if_neg (by omega), if_neg (by omega), if_neg (by omega),
    if_neg (by omega), if_neg (by omega)]
  by_cases hfirst : v / 262144 = 0
  · rw [if_pos (by omega)]
    exact ⟨_, rfl, .next (within_ofNat (by omega) (show 144 ≤ _ by omega) (show _ ≤ 191 by omega) _) (by decide)
      (completes_tail2 (v / 64) v)⟩
  · rw [if_neg (by omega)]
    by_cases hlast : v / 262144 = 4
    · rw [if_neg (by omega), if_pos (by omega)]
      exact ⟨_, rfl, .next (within_ofNat (by omega) (show 128 ≤ _ by omega) (show _ ≤ 143 by omega) _) (by decide)
        (completes_tail2 (v / 64) v)⟩
    · rw [if_pos (by omega)]
      exact ⟨_, rfl, completes_tail3 (v / 4096) (v / 64) v⟩

/-- **The octets of a character** beyond the first 128 complete what the first of them needs. -/
theorem exists_completes {c : Char} (h : 0x80 ≤ c.toNat) : ∃ b need rest,
    String.utf8EncodeChar c = b :: rest ∧ 0x80 ≤ b ∧ Need.ofLead b = some need ∧ Completes need rest := by
  have hscalar : c.toNat < 0xD800 ∨ 0xDFFF < c.toNat ∧ c.toNat < 0x110000 := c.valid
  have hval : c.val.toNat = c.toNat := rfl
  have hlead {n : Nat} (hl : 0x80 ≤ n) (hn : n < 256) : 0x80 ≤ UInt8.ofNat n := by
    rw [UInt8.le_iff_toNat_le, toNat_ofNat hn]
    exact hl
  simp only [String.utf8EncodeChar, hval]
  rw [if_neg (by omega)]
  split
  · obtain ⟨need, hneed, hrest⟩ := completes_two h (by omega)
    exact ⟨_, need, _, rfl, hlead (by omega) (by omega), hneed, hrest⟩
  · split
    · obtain ⟨need, hneed, hrest⟩ := completes_three (v := c.toNat) (by omega) (by omega) (by omega)
      exact ⟨_, need, _, rfl, hlead (by omega) (by omega), hneed, hrest⟩
    · obtain ⟨need, hneed, hrest⟩ := completes_four (v := c.toNat) (by omega) (by omega)
      exact ⟨_, need, _, rfl, hlead (by omega) (by omega), hneed, hrest⟩

/-- **The first 128 characters** have one octet each. -/
theorem encode_of_lt {c : Char} (h : c.toNat < 0x80) : String.utf8EncodeChar c = [UInt8.ofNat c.toNat] := by
  have hval : c.val.toNat = c.toNat := rfl
  rw [String.utf8EncodeChar, hval, if_pos (by omega)]

/-- An octet beyond the first 128 characters is not all of a character. -/
theorem ofLead_ne_start {b : UInt8} (hb : 0x80 ≤ b) {need : Need} (h : Need.ofLead b = some need) : need ≠ .start := by
  rintro rfl
  have hlow : ¬ b < 0x80 := fun hlt => absurd (UInt8.lt_iff_toNat_lt.1 hlt) (Nat.not_lt.2 (UInt8.le_iff_toNat_le.1 hb))
  rw [Need.ofLead, if_neg hlow] at h
  repeat' split at h
  all_goals cases h

/-- Inside a character stand no octets of the first 128 characters. -/
theorem le_of_step {need next : Need} (hneed : need ≠ .start) {b : UInt8} (h : need.step b = some next) : 0x80 ≤ b := by
  have hwithin {low high : UInt8} {after : Need} (hlow : 0x80 ≤ low) (h : Need.within low high b after = some next) :
      0x80 ≤ b := by
    rw [Need.within] at h
    split at h
    · rename_i hb
      exact UInt8.le_trans hlow hb.1
    · cases h
  cases need with
  | start => exact absurd rfl hneed
  | tail1 | tail2 | tail3 | afterE0 | afterED | afterF0 | afterF4 => exact hwithin (by decide) h

/-- A text whose octets are none of the first 128 has none of the first 128 characters. -/
theorem le_of_mem_of_fromUTF8? {octets : List UInt8} (h : ∀ b ∈ octets, 0x80 ≤ b) {text : String}
    (htext : String.fromUTF8? ⟨octets.toArray⟩ = some text) : ∀ c ∈ text.toList, 0x80 ≤ c.toNat := by
  have hoctets : text.toUTF8.toList = octets := by
    rw [String.fromUTF8?] at htext
    split at htext
    · obtain rfl := Option.some.inj htext
      show (ByteArray.mk octets.toArray).toList = octets
      rw [ByteArray.toList, toList_loop]
      rfl
    · cases htext
  intro c hc
  by_contra hlt
  have hmem : UInt8.ofNat c.toNat ∈ octets := by
    rw [← hoctets, toList_toUTF8, List.mem_flatMap]
    exact ⟨c, hc, by rw [encode_of_lt (by omega)]; exact List.mem_singleton_self _⟩
  have := h _ hmem
  rw [UInt8.le_iff_toNat_le, toNat_ofNat (by omega)] at this
  exact hlt this

end RunAudit.Text.Utf8
