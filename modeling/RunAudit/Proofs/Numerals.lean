import RunAudit.Text.Digit

/-!
# Numerals

What writes a number in a base up to sixteen holds digits only (`value?_of_appendTo`, `range_of_value?`). The digits of
a natural number in such a base are read back as that number (`natural?_toDigits`), and of its decimal digits no zero
stands before others (`eq_zero_of_toDigits`).
-/

namespace RunAudit.Text.Digit

/-! ## Digits -/

/-- A digit of a base up to sixteen stands in one of three ranges. -/
theorem range_of_value? {base n : Nat} {c : Char} (hb : base ≤ 16) (h : value? base c = some n) :
    ('0' ≤ c ∧ c ≤ '9') ∨ ('a' ≤ c ∧ c ≤ 'f') ∨ ('A' ≤ c ∧ c ≤ 'F') := by
  unfold value? at h
  by_cases h₁ : '0' ≤ c ∧ c ≤ '9'
  · exact .inl h₁
  by_cases h₂ : 'a' ≤ c ∧ c ≤ 'f'
  · exact .inr (.inl h₂)
  by_cases h₃ : 'A' ≤ c ∧ c ≤ 'F'
  · exact .inr (.inr h₃)
  · simp only [h₁, h₂, h₃, if_false] at h
    rw [if_neg (by omega)] at h
    cases h

/-- A text that writes a number holds digits only. -/
theorem value?_of_appendTo {base : Nat} : ∀ {digits : List Char} {n m : Nat}, appendTo base n digits = .ok m →
    ∀ c ∈ digits, ∃ d, value? base c = some d
  | [], _, _, _, _, hc => by cases hc
  | first :: digits, n, m, h, c, hc => by
    unfold appendTo at h
    cases hd : value? base first with
    | none => simp [hd] at h
    | some d =>
      simp only [hd] at h
      rcases List.mem_cons.1 hc with rfl | hc
      · exact ⟨d, hd⟩
      · exact value?_of_appendTo h c hc

theorem utf8Size_of_value? {base n : Nat} {c : Char} (hb : base ≤ 16) (h : value? base c = some n) :
    c.utf8Size = 1 := by
  have hc : c ≤ 'f' := by
    rcases range_of_value? hb h with ⟨_, h⟩ | ⟨_, h⟩ | ⟨_, h⟩
    · exact Char.le_trans h (by decide)
    · exact h
    · exact Char.le_trans h (by decide)
  have hv : c.val ≤ 0x7f := Nat.le_trans hc (by decide)
  simp [Char.utf8Size, hv]

/-- A character outside of the three ranges is no digit. -/
theorem ne_of_value? {base n : Nat} {c x : Char} (hb : base ≤ 16) (h : value? base c = some n)
    (hx : ¬(('0' ≤ x ∧ x ≤ '9') ∨ ('a' ≤ x ∧ x ≤ 'f') ∨ ('A' ≤ x ∧ x ≤ 'F'))) : c ≠ x :=
  fun e => hx (e ▸ range_of_value? hb h)

/-! ## The digits of a number -/

/-- The digit of a number below the base has it for its value. -/
theorem value?_digitChar {base d : Nat} (hb : base ≤ 16) (hd : d < base) : value? base (Nat.digitChar d) = some d := by
  have hall : ∀ d < 16, value? 16 (Nat.digitChar d) = some d := by decide
  have hvalue := hall d (by omega)
  simp only [value?, Option.ite_none_right_eq_some, Option.some.injEq] at hvalue ⊢
  exact ⟨by omega, hvalue.2⟩

/-- Digits read in two parts. -/
theorem appendTo_append (base : Nat) : ∀ (n : Nat) (digits digits' : List Char),
    appendTo base n (digits ++ digits') = (appendTo base n digits).bind (appendTo base · digits')
  | _, [], _ => rfl
  | n, c :: digits, digits' => by
    rw [List.cons_append, appendTo, appendTo]
    cases value? base c with
    | none => rfl
    | some d => exact appendTo_append base _ digits digits'

/-- **The digits of a number** write that number. -/
theorem number_toDigits {base : Nat} (hlow : 1 < base) (hhigh : base ≤ 16) (n : Nat) :
    number base (Nat.toDigits base n) = .ok n := by
  induction n using Nat.strongRecOn with
  | _ n ih =>
    rw [number]
    rcases Nat.lt_or_ge n base with hn | hn
    · rw [Nat.toDigits_of_lt_base hn, appendTo, value?_digitChar hhigh hn]
      simp [appendTo]
    · -- the last digit comes behind those of the quotient
      have hquotient := ih (n / base) (Nat.div_lt_self (by omega) hlow)
      have hlast := value?_digitChar hhigh (Nat.mod_lt n (by omega))
      rw [number] at hquotient
      rw [Nat.toDigits_of_base_le hlow hn, appendTo_append, hquotient]
      simp only [Except.bind, appendTo, hlast]
      rw [Nat.mul_comm, Nat.div_add_mod]

/-- The digits of a number are read back as the number. -/
theorem natural?_toDigits {base : Nat} (hlow : 1 < base) (hhigh : base ≤ 16) (n : Nat) :
    natural? base (Nat.toDigits base n) = some n := by
  rw [natural?, number_toDigits hlow hhigh]
  simp [Nat.toDigits_ne_nil, Except.toOption]

/-! ## Decimal digits -/

theorem isDigit_of_mem {n : Nat} : ∀ c ∈ Nat.toDigits 10 n, c.isDigit = true := fun _ hc =>
  Nat.isDigit_of_mem_toDigits (by decide) (by decide) hc

theorem exists_toDigits (n : Nat) : ∃ c digits, Nat.toDigits 10 n = c :: digits ∧ c.isDigit = true := by
  obtain ⟨c, digits, h⟩ := List.exists_cons_of_ne_nil (Nat.toDigits_ne_nil (n := n) (b := 10))
  exact ⟨c, digits, h, isDigit_of_mem (n := n) c (h ▸ List.mem_cons_self)⟩

theorem toList_toString (n : Nat) : (toString n).toList = Nat.toDigits 10 n := by
  rw [Nat.toString_eq_repr, Nat.toList_repr]

theorem not_mem_toString {c : Char} (h : c.isDigit = false) (n : Nat) : c ∉ (toString n).toList := fun hc => by
  rw [toList_toString] at hc
  rw [isDigit_of_mem c hc] at h
  cases h

/-- Numbers are told apart by their decimal digits. -/
theorem toString_injective : Function.Injective (toString : Nat → String) := by
  intro m n h
  have hnumber : number 10 (toString m).toList = number 10 (toString n).toList := by rw [h]
  rw [toList_toString, toList_toString, number_toDigits (by decide) (by decide),
    number_toDigits (by decide) (by decide)] at hnumber
  exact Except.ok.inj hnumber

/-- A numeral that begins with a zero is that of zero. -/
theorem eq_zero_of_toDigits {n : Nat} : ∀ {rest : List Char}, Nat.toDigits 10 n = '0' :: rest → n = 0 := by
  induction n using Nat.strongRecOn with
  | _ n ih =>
    intro rest h
    rcases Nat.lt_or_ge n 10 with hn | hn
    · rw [Nat.toDigits_of_lt_base hn] at h
      exact Nat.digitChar_eq_zero.1 (List.cons.inj h).1
    · rw [Nat.toDigits_of_base_le (by decide) hn] at h
      obtain ⟨c, front, hfront⟩ := List.exists_cons_of_ne_nil (Nat.toDigits_ne_nil (n := n / 10) (b := 10))
      rw [hfront, List.cons_append, List.cons.injEq] at h
      -- the first digit is that of the number without its last digit, which is not zero
      have hzero := ih (n / 10) (by omega) (h.1 ▸ hfront)
      omega

end RunAudit.Text.Digit
