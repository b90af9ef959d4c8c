import RunAudit.Proofs.Json.Grammar
import RunAudit.Yaml.Token.Stream

/-!
# Blanks between tokens

`Passes` says how blanks are passed over, to which place and with what effect on the keys allowed after them. The
scanner passes over them so in front of a token (`toToken_passes`), and a plain scalar passes over those behind it
(`plain_word`).
-/

namespace RunAudit.Yaml

open RunAudit.Json (Blank)

/-! ## Blanks -/

/-- How blanks are passed over: whether a key is allowed, and the place, before and after them. Where one is allowed
outside of brackets, no tab may stand. -/
inductive Passes (flow : Bool) : Bool → Mark → List Char → Bool → Mark → Prop
  | nil (k : Bool) (m : Mark) : Passes flow k m [] k m
  | blank {k k' : Bool} {m m' : Mark} {c : Char} {b : List Char} : c = ' ' ∨ c = '\t' ∧ (flow || !k) = true →
      Passes flow k m.next b k' m' → Passes flow k m (c :: b) k' m'
  | pair {k k' : Bool} {m m' : Mark} {b : List Char} : Passes flow (k || !flow) (m.newLine 2) b k' m' →
      Passes flow k m ('\r' :: '\n' :: b) k' m'
  | newLine {k k' : Bool} {m m' : Mark} {c : Char} {b : List Char} : c = '\n' ∨ c = '\r' →
      (c = '\r' → b.head? ≠ some '\n') → Passes flow (k || !flow) (m.newLine 1) b k' m' →
      Passes flow k m (c :: b) k' m'

@[simp] theorem Mark.past_zero (m : Mark) : m.past 0 = m := rfl

/-- Between brackets, blanks allow no key. -/
theorem Passes.key_eq {k k' : Bool} {m m' : Mark} {b : List Char} (h : Passes true k m b k' m') : k' = k := by
  induction h with
  | nil => rfl
  | blank _ _ ih => exact ih
  | pair _ ih => simpa using ih
  | newLine _ _ _ ih => simpa using ih

/-- Blanks forbid no key. -/
theorem Passes.key_allowed {flow k k' : Bool} {m m' : Mark} {b : List Char} (h : Passes flow k m b k' m')
    (hk : k = true) : k' = true := by
  induction h with
  | nil => exact hk
  | blank _ _ ih => exact ih hk
  | pair _ ih => exact ih (by simp [hk])
  | newLine _ _ _ ih => exact ih (by simp [hk])

/-- Between brackets all blanks are passed over, and outside of them those without tabs. -/
theorem exists_passes {flow : Bool} (k : Bool) {b : List Char} (h : Blank b) (htab : flow = true ∨ '\t' ∉ b)
    (m : Mark) : ∃ k' m', Passes flow k m b k' m' := by
  induction hn : b.length using Nat.strongRecOn generalizing b m k with
  | _ n ih =>
    cases b with
    | nil => exact ⟨k, m, .nil k m⟩
    | cons c b =>
      obtain ⟨hc, hb⟩ := List.forall_mem_cons.1 h
      have htab' : flow = true ∨ '\t' ∉ b := htab.imp_right fun hmem htail => hmem (List.mem_cons_of_mem _ htail)
      simp only [List.length_cons] at hn
      obtain ⟨k₁, m₁, h₁⟩ := ih b.length (by omega) k hb htab' m.next rfl
      obtain ⟨k₂, m₂, h₂⟩ := ih b.length (by omega) (k || !flow) hb htab' (m.newLine 1) rfl
      simp only [Json.isSpace, Bool.or_eq_true, decide_eq_true_eq] at hc
      rcases hc with ((rfl | rfl) | rfl) | rfl
      · exact ⟨k₁, m₁, .blank (.inl rfl) h₁⟩
      · exact ⟨k₂, m₂, .newLine (.inl rfl) (by simp) h₂⟩
      · have hflow : flow = true := htab.resolve_right fun hmem => hmem List.mem_cons_self
        exact ⟨k₁, m₁, .blank (.inr ⟨rfl, by simp [hflow]⟩) h₁⟩
      · by_cases hpair : b.head? = some '\n'
        · obtain ⟨b, rfl⟩ : ∃ b', b = '\n' :: b' := by
            cases b with
            | nil => cases hpair
            | cons x b' =>
              cases hpair
              exact ⟨b', rfl⟩
          obtain ⟨k₃, m₃, h₃⟩ := ih b.length (by simp at hn; omega) (k || !flow)
            (fun x hx => hb x (List.mem_cons_of_mem _ hx))
            (htab'.imp_right fun hmem htail => hmem (List.mem_cons_of_mem _ htail)) (m.newLine 2) rfl
          exact ⟨k₃, m₃, .pair h₃⟩
        · exact ⟨k₂, m₂, .newLine (.inr rfl) (fun _ => hpair) h₂⟩

/-- Between brackets, all blanks are passed over. -/
theorem exists_passes_flow (k : Bool) {b : List Char} (h : Blank b) (m : Mark) : ∃ m', Passes true k m b k m' := by
  obtain ⟨k', m', hpasses⟩ := @exists_passes true k b h (.inl rfl) m
  exact ⟨m', hpasses.key_eq ▸ hpasses⟩

/-- Blanks within a line come before others, where tabs may stand. -/
theorem Passes.line {flow k k' : Bool} {m m' : Mark} {b s : List Char} (hk : (flow || !k) = true)
    (hb : ∀ c ∈ b, isBlank c = true) (h : Passes flow k (m.past b.length) s k' m') :
    Passes flow k m (b ++ s) k' m' := by
  induction b generalizing m with
  | nil => exact h
  | cons c b ih =>
    obtain ⟨hc, hb⟩ := List.forall_mem_cons.1 hb
    simp only [isBlank, Bool.or_eq_true, decide_eq_true_eq] at hc
    have hmark : m.next.past b.length = m.past (c :: b).length := by
      simp [Mark.next, Mark.past, Nat.add_comm, Nat.add_left_comm]
    have hrest : Passes flow k m.next (b ++ s) k' m' := ih hb (hmark.symm ▸ h)
    rcases hc with rfl | rfl
    · exact .blank (.inl rfl) hrest
    · exact .blank (.inr ⟨rfl, hk⟩) hrest

/-- Blanks within a line keep the line. -/
theorem passes_line (k : Bool) {b : List Char} (hb : ∀ c ∈ b, isBlank c = true) (m : Mark) :
    Passes true k m b k (m.past b.length) := by
  have h := @Passes.line true k _ _ _ _ _ rfl hb (.nil k (m.past b.length))
  rwa [List.append_nil] at h

/-! ## In front of a token -/

/-- Whether a text begins with what no blank can be part of. -/
def Stops (s : List Char) : Prop := ∀ c ∈ s.head?, isBlankOrBreak c = false ∧ c ≠ '#'

theorem toToken_stops {s : List Char} (h : Stops s) (flow k : Bool) (m : Mark) (fuel : Nat) :
    toToken flow k ⟨s, m⟩ (fuel + 1) = (k, ⟨s, m⟩) := by
  cases s with
  | nil => rfl
  | cons c s =>
    obtain ⟨hc, hcomment⟩ := h c rfl
    simp only [isBlankOrBreak, isBlank, Bool.or_eq_false_iff, decide_eq_false_iff_not] at hc
    obtain ⟨⟨⟨hspace, htab⟩, _⟩, hbreak⟩ := hc
    simp [toToken, Rest.dropWhile, Rest.takeWhile, Mark.past, hspace, htab, hcomment, hbreak]

theorem toToken_blank {flow k : Bool} {c : Char} (hc : c = ' ' ∨ c = '\t' ∧ (flow || !k) = true) (s : List Char)
    (m : Mark) (fuel : Nat) : toToken flow k ⟨c :: s, m⟩ (fuel + 1) = toToken flow k ⟨s, m.next⟩ (fuel + 1) := by
  have hpass : (decide (c = ' ') || decide (c = '\t') && (flow || !k)) = true := by
    rcases hc with rfl | ⟨rfl, hk⟩
    · simp
    · simpa using hk
  simp only [toToken, Rest.dropWhile, Rest.takeWhile, List.takeWhile_cons, List.dropWhile_cons, hpass, if_true,
    List.length_cons, Mark.next, Mark.past, Nat.add_assoc, Nat.add_comm]

theorem toToken_break {flow k : Bool} {c : Char} (hc : c = '\n' ∨ c = '\r') (s : List Char) (m : Mark) (fuel : Nat) :
    toToken flow k ⟨c :: s, m⟩ (fuel + 1) = toToken flow (k || !flow) (Rest.skipBreak ⟨c :: s, m⟩) fuel := by
  rcases hc with rfl | rfl <;>
    simp [toToken, Rest.dropWhile, Rest.takeWhile, Mark.past, isBreak]

theorem skipBreak_cons {c : Char} (hc : c = '\n' ∨ c = '\r') {s : List Char}
    (hs : c = '\r' → s.head? ≠ some '\n') (m : Mark) : Rest.skipBreak ⟨c :: s, m⟩ = ⟨s, m.newLine 1⟩ := by
  unfold Rest.skipBreak
  split
  · rename_i heq
    cases heq
    exact absurd rfl (hs rfl)
  · rename_i heq
    cases heq
    rw [if_pos]
    rcases hc with rfl | rfl <;> rfl
  · rename_i heq
    cases heq

theorem head_ne_of_stops {b s : List Char} (hb : b.head? ≠ some '\n') (hs : Stops s) :
    (b ++ s).head? ≠ some '\n' := by
  cases b with
  | nil =>
    intro h
    exact absurd (hs '\n' h).1 (by decide)
  | cons c b => simpa using hb

/-- **Blanks in front of a token** are passed over. -/
theorem toToken_passes {flow k k' : Bool} {m m' : Mark} {b : List Char} (h : Passes flow k m b k' m') {s : List Char}
    (hs : Stops s) : ∀ {fuel}, b.length < fuel → toToken flow k ⟨b ++ s, m⟩ fuel = (k', ⟨s, m'⟩) := by
  induction h with
  | nil k m =>
    intro fuel hf
    obtain ⟨fuel, rfl⟩ := Nat.exists_eq_add_of_lt hf
    exact toToken_stops hs flow k m _
  | blank hc _ ih =>
    intro fuel hf
    cases fuel with
    | zero => cases hf
    | succ fuel => exact (toToken_blank hc _ _ _).trans (ih (Nat.lt_of_succ_lt hf))
  | pair _ ih =>
    intro fuel hf
    cases fuel with
    | zero => cases hf
    | succ fuel => exact (toToken_break (.inr rfl) _ _ _).trans (ih (by simp at hf; omega))
  | @newLine k k' m m' c b hc hpair _ ih =>
    intro fuel hf
    cases fuel with
    | zero => cases hf
    | succ fuel =>
      rw [List.cons_append, toToken_break hc, skipBreak_cons hc fun hr => head_ne_of_stops (hpair hr) hs]
      exact ih (by simpa using hf)

/-! ## Behind a word -/

/-- A character that a plain scalar goes on with, between brackets too. -/
def isWordChar (c : Char) : Bool := !(isBlankOrBreak c || c = ':' || c = '#' || Plain.endsInFlow c)

theorem plain_cons {c : Char} {rest : List Char} (hr : c = '\r' → rest.head? ≠ some '\n') (text : List Char)
    (gap : Gap) (m : Mark) :
    Plain.read true 0 text gap (c :: rest) m =
      if isBreak c then Plain.read true 0 text (gap.addBreak c) rest (m.newLine 1)
      else if isBlank c then Plain.read true 0 text (gap.addBlank c) rest m.next
      else if c = ':' && Plain.clashesInFlow rest then none
      else if Plain.endsBefore true 0 gap m c rest then some ⟨text.reverse, gap.isBroken, ⟨c :: rest, m⟩⟩
      else Plain.read true 0 (c :: gap.close text) .none rest m.next := by
  have hcolumn : ¬(m.column : Int) < 0 := by omega
  rw [Plain.read]
  · simp [hcolumn]
  · rintro rest rfl rfl
    exact absurd rfl (hr rfl)

theorem stops_of_ends {c : Char} (hc : c = ',' ∨ c = ']' ∨ c = '\x7d') (t : List Char) : Stops (c :: t) := by
  intro x hx
  cases hx
  rcases hc with rfl | rfl | rfl <;> decide

/-- What ends a value ends a plain scalar, and the blanks before it are passed over. -/
theorem plain_passes {k k' : Bool} {m m' : Mark} {b : List Char} (h : Passes true k m b k' m') {c : Char}
    (hc : c = ',' ∨ c = ']' ∨ c = '\x7d') (t text : List Char) :
    ∀ gap, ∃ broken, Plain.read true 0 text gap (b ++ c :: t) m = some ⟨text.reverse, broken, ⟨c :: t, m'⟩⟩ := by
  induction h with
  | nil k m =>
    intro gap
    refine ⟨gap.isBroken, ?_⟩
    rw [List.nil_append, plain_cons (by rcases hc with rfl | rfl | rfl <;> simp)]
    rcases hc with rfl | rfl | rfl <;> simp [isBreak, isBlank, Plain.endsBefore, Plain.endsInFlow]
  | @blank k k' m m' x b hx _ ih =>
    intro gap
    obtain ⟨broken, hread⟩ := ih (gap.addBlank x)
    refine ⟨broken, ?_⟩
    rw [List.cons_append, plain_cons (by rcases hx with rfl | ⟨rfl, _⟩ <;> simp), ← hread]
    rcases hx with rfl | ⟨rfl, _⟩ <;> simp [isBreak, isBlank]
  | @pair k k' m m' b _ ih =>
    intro gap
    obtain ⟨broken, hread⟩ := ih (gap.addBreak '\n')
    refine ⟨broken, ?_⟩
    rw [← hread, List.cons_append, List.cons_append, Plain.read]
  | @newLine k k' m m' x b hx hpair _ ih =>
    intro gap
    obtain ⟨broken, hread⟩ := ih (gap.addBreak x)
    have hbreak : isBreak x = true := by rcases hx with rfl | rfl <;> rfl
    refine ⟨broken, ?_⟩
    rw [List.cons_append, plain_cons fun hr => head_ne_of_stops (hpair hr) (stops_of_ends hc t), if_pos hbreak, hread]

/-- **A word is read** up to what ends a value. -/
theorem plain_word {word : List Char} (hw : ∀ c ∈ word, isWordChar c = true) {k k' : Bool} {b : List Char} {c : Char}
    (hc : c = ',' ∨ c = ']' ∨ c = '\x7d') {m m' : Mark} (h : Passes true k (m.past word.length) b k' m')
    (t text : List Char) : ∃ broken, Plain.read true 0 text .none (word ++ (b ++ c :: t)) m =
      some ⟨text.reverse ++ word, broken, ⟨c :: t, m'⟩⟩ := by
  induction word generalizing m text with
  | nil =>
    obtain ⟨broken, hread⟩ := plain_passes h hc t text .none
    exact ⟨broken, by simpa using hread⟩
  | cons x word ih =>
    obtain ⟨hx, hrest⟩ := List.forall_mem_cons.1 hw
    have hmark : m.past (x :: word).length = m.next.past word.length := by
      simp [Mark.next, Mark.past, Nat.add_comm, Nat.add_left_comm]
    obtain ⟨broken, hread⟩ := ih hrest (hmark ▸ h) (x :: text)
    simp only [isWordChar, isBlankOrBreak, Bool.not_eq_true', Bool.or_eq_false_iff, decide_eq_false_iff_not] at hx
    obtain ⟨⟨⟨⟨⟨hblank, _⟩, hbreak⟩, hcolon⟩, hcomment⟩, hends⟩ := hx
    have hr : x ≠ '\r' := by
      rintro rfl
      cases hbreak
    refine ⟨broken, ?_⟩
    rw [List.cons_append, plain_cons fun h => absurd h hr]
    simp [hbreak, hblank, hcolon, Plain.endsBefore, hends, Gap.close, hread]

end RunAudit.Yaml
