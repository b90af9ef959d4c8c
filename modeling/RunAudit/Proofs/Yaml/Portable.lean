import RunAudit.Proofs.Json.Grammar
import RunAudit.Proofs.Numerals
import RunAudit.Yaml.Token.Stream

/-!
# Strings of two languages

The dialect of documents that are read alike (`portable`): one string is read as another language reads it
(`read_quoted`), as long as each character is spelled alike.
-/

namespace RunAudit.Yaml

open RunAudit.Json (Body Dialect Spelled shortEscapes)
open RunAudit.Text

/-! ## The dialect -/

/-- Whether a character may stand for itself in both languages: it may stand in a document, and counts as it is even
where it breaks a line. -/
def isPlain (c : Char) : Bool := 0x20 ≤ c.toNat && c ≠ '"' && c ≠ '\\' && isAllowed c && c ≠ '\x85'

theorem isPlain_iff {c : Char} : isPlain c = true ↔
    0x20 ≤ c.toNat ∧ c ≠ '"' ∧ c ≠ '\\' ∧ isAllowed c = true ∧ c ≠ '\x85' := by
  simp [isPlain, and_assoc]

/-- How a character is spelled so that it is read alike; what is beyond four digits stands for itself. -/
inductive Alike : Char → List Char → Prop
  | plain {c : Char} : isPlain c = true → Alike c [c]
  | short {letter c : Char} : (letter, c) ∈ shortEscapes → Alike c ['\\', letter]
  | code {c : Char} {digits : List Char} : digits.length = 4 → Digit.number 16 digits = .ok c.toNat →
      Alike c ('\\' :: 'u' :: digits)

/-- Whether line breaks stand where nothing but they are read: no space is next to one, and no mark of a document is
behind one. -/
def isUnfolded : List Char → Bool
  | [] => true
  | c :: rest =>
    (c ≠ ' ' || !rest.head?.any isBreak) &&
      (!isBreak c || (rest.head? ≠ some ' ' && !startsWithDocumentMark rest)) && isUnfolded rest

/-- **What both languages read alike**: a key stands on one line with its colon, which is not too far behind where it
begins. -/
def portable : Dialect where
  char := Alike
  body written := isUnfolded (written ++ ['"']) = true
  colon key b := (∀ c ∈ key, isBreak c = false) ∧ (∀ c ∈ b, isBlank c = true) ∧ key.length + b.length ≤ maxKeyLength

theorem Alike.spelled {c : Char} {s : List Char} (h : Alike c s) : Spelled c s := by
  cases h with
  | plain hplain =>
    obtain ⟨hc, hq, hb, _, _⟩ := isPlain_iff.1 hplain
    exact .plain hc hq hb
  | short hm => exact .short hm
  | code hl hn => exact .code hl hn

/-- A text without characters that have to be spelled otherwise stands between quotes as it is. -/
theorem quoted_of_plain {text : String} (h : text.toList.all isPlain = true)
    (hunfolded : isUnfolded (text.toList ++ ['"']) = true) :
    Json.Quoted portable text ('"' :: text.toList ++ ['"']) := by
  refine ⟨text.toList, ?_, hunfolded, rfl⟩
  generalize text.toList = cs at h
  induction cs with
  | nil => exact .nil
  | cons c cs ih =>
    rw [List.all_cons, Bool.and_eq_true] at h
    exact .cons (s := [c]) (.plain h.1) (ih h.2)

/-! ## Gaps -/

theorem isUnfolded_of_append : ∀ {s rest : List Char}, isUnfolded (s ++ rest) = true → isUnfolded rest = true
  | [], _, h => h
  | c :: s, rest, h => by
    rw [List.cons_append, isUnfolded, Bool.and_eq_true] at h
    exact isUnfolded_of_append h.2

/-- Reading stands in front of what is left of a string, with a gap that counts as it is. -/
inductive Ready : Gap → Mark → List Char → Prop
  | none {m : Mark} {w : List Char} : m.column ≠ 0 → Ready .none m w
  | blanks {bs w : List Char} {m : Mark} : m.column ≠ 0 → (∀ x ∈ w.head?, isBreak x = false) → Ready (.blanks bs) m w
  | breaks {first : Char} {more w : List Char} {m : Mark} : first ≠ '\n' → w.head? ≠ some ' ' →
      startsWithDocumentMark w = false → Ready (.breaks (some first) more) m w

theorem close_breaks {first : Char} (h : first ≠ '\n') (more text : List Char) :
    (Gap.breaks (some first) more).close text = more ++ first :: text := by
  simp [Gap.close, h]

theorem mark_cons (a b c : Char) (s : List Char) : startsWithDocumentMark (a :: b :: c :: s) =
    ((a = '-' && b = '-' && c = '-' || a = '.' && b = '.' && c = '.') && atWordEnd s) := by
  unfold startsWithDocumentMark
  split
  · rename_i heq
    cases heq
    simp
  · rename_i heq
    cases heq
    simp
  · rename_i hdashes hdots
    have hnone : (a = '-' && b = '-' && c = '-' || a = '.' && b = '.' && c = '.') = false := by
      rw [Bool.eq_false_iff]
      intro hsome
      simp only [Bool.or_eq_true, Bool.and_eq_true, decide_eq_true_eq] at hsome
      rcases hsome with ⟨⟨rfl, rfl⟩, rfl⟩ | ⟨⟨rfl, rfl⟩, rfl⟩
      · exact hdashes s rfl
      · exact hdots s rfl
    rw [hnone, Bool.false_and]

/-- What is behind the last quote of a string is part of no mark before it. -/
theorem mark_of_quote (w rest : List Char) :
    startsWithDocumentMark (w ++ '"' :: rest) = startsWithDocumentMark (w ++ ['"']) := by
  rcases w with _ | ⟨a, _ | ⟨b, _ | ⟨c, w⟩⟩⟩
  · rfl
  · simp [startsWithDocumentMark]
  · simp [startsWithDocumentMark]
  · simp only [List.cons_append, mark_cons]
    cases w <;> rfl

/-- No mark of a document stands where reading does. -/
theorem Ready.unmarked {gap : Gap} {m : Mark} {w : List Char} (h : Ready gap m (w ++ ['"'])) (rest : List Char) :
    (m.column = 0 && startsWithDocumentMark (w ++ '"' :: rest)) = false := by
  cases h with
  | none hm | blanks hm _ => simp [hm]
  | breaks _ _ hmark =>
    simp [mark_of_quote, hmark]

/-! ## Quoted scalars -/

theorem simple?_of_mem {letter c : Char} (h : (letter, c) ∈ shortEscapes) :
    Quoted.simple? letter = some c ∧ isBreak letter = false ∧ letter ≠ '\r' := by
  simp only [shortEscapes, List.mem_cons, Prod.mk.injEq, List.not_mem_nil, or_false] at h
  rcases h with ⟨rfl, rfl⟩ | ⟨rfl, rfl⟩ | ⟨rfl, rfl⟩ | ⟨rfl, rfl⟩ | ⟨rfl, rfl⟩ | ⟨rfl, rfl⟩ | ⟨rfl, rfl⟩ | ⟨rfl, rfl⟩
  all_goals exact ⟨rfl, rfl, by decide⟩

theorem numeric?_of_number {digits : List Char} {c : Char} (hl : digits.length = 4)
    (hn : Digit.number 16 digits = .ok c.toNat) (rest : List Char) : Quoted.numeric? 4 (digits ++ rest) = some c := by
  have hnatural : Digit.natural? 16 digits = some c.toNat := by
    cases digits with
    | nil => cases hl
    | cons d digits => rw [Digit.natural?, hn, List.isEmpty_cons, if_neg Bool.false_ne_true, Except.toOption]
  rw [Quoted.numeric?, List.take_left' hl, if_neg (by simp [hl]), hnatural]
  exact dif_pos c.valid

section Read

variable {acc rest : List Char} {gap : Gap} {m : Mark}

/-- A character between double quotes that begins no escape. -/
theorem read_cons {c : Char} (hr : c ≠ '\r') (hb : c ≠ '\\')
    (hmark : (m.column = 0 && startsWithDocumentMark (c :: rest)) = false) :
    Quoted.read '"' acc gap (c :: rest) m =
      if isBreak c then Quoted.read '"' acc (gap.addBreak c) rest (m.newLine 1)
      else if isBlank c then Quoted.read '"' acc (gap.addBlank c) rest m.next
      else if c = '"' then some ((gap.close acc).reverse, ⟨rest, m.next⟩)
      else Quoted.read '"' (c :: gap.close acc) .none rest m.next := by
  rw [Quoted.read.eq_def]
  split
  · rename_i h
    cases h
  · rename_i h
    cases h
    exact absurd rfl hr
  · rename_i h
    cases h
    simp [hb, hmark]

/-- An escape between double quotes. -/
theorem read_escape {letter c : Char} {count : Nat} (hb : isBreak letter = false)
    (h : Quoted.escape? (letter :: rest) = some (c, count)) :
    Quoted.read '"' acc gap ('\\' :: letter :: rest) m =
      Quoted.read '"' (c :: gap.close acc) .none (rest.drop (count - 1)) (m.past (count + 1)) := by
  have hbackslash : isBreak '\\' = false ∧ isBlank '\\' = false := by decide
  have hmark : startsWithDocumentMark ('\\' :: letter :: rest) = false := rfl
  rw [Quoted.read.eq_def]
  split
  · rename_i heq
    cases heq
  · rename_i heq
    cases heq
  · rename_i heq
    cases heq
    simp only [hbackslash, hmark, Bool.false_eq_true, if_false, Char.reduceEq, decide_false, decide_true,
      Bool.and_false, Bool.and_self, if_true]
    split
    · rename_i heq
      cases heq
      cases hb
    · rename_i heq
      cases heq
      simp only [hb, h, Bool.false_eq_true, if_false]
    · rename_i heq
      cases heq

/-- What a step of reading does with a character that is spelled in some way: it counts as itself, and reading stands in
front of what follows. -/
def Steps (c : Char) (s w rest acc : List Char) (gap : Gap) (m : Mark) : Prop :=
  ∃ acc' gap' m', Ready gap' m' (w ++ ['"']) ∧ gap'.close acc' = c :: gap.close acc ∧
    ((∀ x ∈ s, isBreak x = false) → m' = m.past s.length) ∧
    Quoted.read '"' acc gap (s ++ (w ++ '"' :: rest)) m = Quoted.read '"' acc' gap' (w ++ '"' :: rest) m'

/-- A separator of lines counts as itself. -/
theorem steps_break {c : Char} {w : List Char} (hbreak : isBreak c = true) (hc : c ≠ '\n' ∧ c ≠ '\r' ∧ c ≠ '\x85')
    (h : Ready gap m (c :: (w ++ ['"']))) (hw : (w ++ ['"']).head? ≠ some ' ')
    (hmark : startsWithDocumentMark (w ++ ['"']) = false) : Steps c [c] w rest acc gap m := by
  have hfold : foldBreak c = c := by
    simp only [isBreak, Bool.or_eq_true, decide_eq_true_eq, hc.1, hc.2.1, hc.2.2, false_or] at hbreak
    rw [foldBreak, if_pos hbreak]
  have hb : c ≠ '\\' := by
    rintro rfl
    cases hbreak
  have hunmarked := @Ready.unmarked gap m (c :: w) h rest
  have hread := @read_cons acc (w ++ '"' :: rest) gap m c hc.2.1 hb hunmarked
  rw [if_pos hbreak] at hread
  refine ⟨acc, gap.addBreak c, m.newLine 1, ?_, ?_, fun hs => by simp [hbreak] at hs, hread⟩
  · cases h with
    | none =>
      show Ready (.breaks (some (foldBreak c)) []) _ _
      rw [hfold]
      exact .breaks hc.1 hw hmark
    | blanks _ hhead => simp [hbreak] at hhead
    | breaks hfirst _ _ => exact .breaks hfirst hw hmark
  · cases h with
    | none =>
      show (Gap.breaks (some (foldBreak c)) []).close acc = c :: acc
      rw [hfold, close_breaks hc.1, List.nil_append]
    | blanks _ hhead => simp [hbreak] at hhead
    | breaks hfirst _ _ => rw [Gap.addBreak, hfold, close_breaks hfirst, close_breaks hfirst, List.cons_append]

/-- A space counts as itself. -/
theorem steps_space {w : List Char} (h : Ready gap m (' ' :: (w ++ ['"'])))
    (hw : ∀ x ∈ (w ++ ['"']).head?, isBreak x = false) : Steps ' ' [' '] w rest acc gap m := by
  have hunmarked := @Ready.unmarked gap m (' ' :: w) h rest
  have hread := @read_cons acc (w ++ '"' :: rest) gap m ' ' (by decide) (by decide) hunmarked
  refine ⟨acc, gap.addBlank ' ', m.next, ?_, ?_, fun _ => rfl, hread⟩
  · cases h with
    | none => exact .blanks (Nat.succ_ne_zero _) hw
    | blanks => exact .blanks (Nat.succ_ne_zero _) hw
    | breaks _ hhead _ => simp at hhead
  · cases h with
    | none | blanks => rfl
    | breaks _ hhead _ => simp at hhead

/-- **A spelled character is read** as itself. -/
theorem steps_alike {c : Char} {s w : List Char} (h : Alike c s) (hready : Ready gap m (s ++ (w ++ ['"'])))
    (hunfolded : isUnfolded (s ++ (w ++ ['"'])) = true) : Steps c s w rest acc gap m := by
  cases h with
  | plain hplain =>
    obtain ⟨hc, hq, hb, _, hnext⟩ := isPlain_iff.1 hplain
    have hr : c ≠ '\r' := by
      rintro rfl
      exact absurd hc (by decide)
    have hn : c ≠ '\n' := by
      rintro rfl
      exact absurd hc (by decide)
    simp only [List.singleton_append, isUnfolded, Bool.and_eq_true, Bool.or_eq_true, decide_eq_true_eq,
      Bool.not_eq_true', ne_eq] at hunfolded
    obtain ⟨⟨hspace, hbreak⟩, _⟩ := hunfolded
    by_cases hcbreak : isBreak c = true
    · obtain ⟨hhead, hmark⟩ := hbreak.resolve_left (by simp [hcbreak])
      exact steps_break hcbreak ⟨hn, hr, hnext⟩ hready hhead hmark
    by_cases hcspace : c = ' '
    · subst hcspace
      have hhead := hspace.resolve_left (fun h => h rfl)
      exact steps_space hready fun x hx => by simpa [Option.mem_def.1 hx] using hhead
    · have hblank : isBlank c = false := by
        have htab : c ≠ '\t' := by
          rintro rfl
          exact absurd hc (by decide)
        simp [isBlank, hcspace, htab]
      refine ⟨c :: gap.close acc, .none, m.next, .none (Nat.succ_ne_zero _), rfl, fun _ => rfl, ?_⟩
      refine (read_cons hr hb (@Ready.unmarked gap m (c :: w) hready rest)).trans ?_
      rw [if_neg hcbreak, hblank, if_neg Bool.false_ne_true, if_neg hq]
      rfl
  | @short letter c hmem =>
    obtain ⟨hsimple, hbreak, _⟩ := simple?_of_mem hmem
    have hescape : Quoted.escape? (letter :: (w ++ '"' :: rest)) = some (c, 1) := by simp [Quoted.escape?, hsimple]
    exact ⟨c :: gap.close acc, .none, _, .none (Nat.succ_ne_zero _), rfl, fun _ => rfl, read_escape hbreak hescape⟩
  | @code c digits hl hn =>
    have hescape : Quoted.escape? ('u' :: (digits ++ (w ++ '"' :: rest))) = some (c, 5) := by
      simp [Quoted.escape?, Quoted.simple?, Quoted.digits?, numeric?_of_number hl hn]
    refine ⟨c :: gap.close acc, .none, m.past 6, .none (Nat.succ_ne_zero _), rfl, fun _ => by simp [hl], ?_⟩
    refine (read_escape (by decide) hescape).trans ?_
    rw [List.drop_left' hl]

/-- The characters of a string are read up to its last quote. -/
theorem read_body {text written : List Char} (h : Body portable text written) : ∀ {acc gap m},
    Ready gap m (written ++ ['"']) → isUnfolded (written ++ ['"']) = true →
      ∃ m', Quoted.read '"' acc gap (written ++ '"' :: rest) m = some ((gap.close acc).reverse ++ text, ⟨rest, m'⟩) ∧
        ((∀ x ∈ written, isBreak x = false) → m' = m.past (written.length + 1)) := by
  induction h with
  | nil =>
    intro acc gap m hready _
    refine ⟨m.next, ?_, fun _ => rfl⟩
    rw [List.nil_append, read_cons (by decide) (by decide) (hready.unmarked rest)]
    simp [isBreak, isBlank]
  | @cons c s text written hc _ ih =>
    intro acc gap m hready hunfolded
    rw [List.append_assoc] at hready hunfolded
    obtain ⟨acc', gap', m₁, hready', hclose, hline, hread⟩ :=
      @steps_alike acc rest gap m c s written hc hready hunfolded
    obtain ⟨m', hrest, hline'⟩ := @ih acc' gap' m₁ hready' (isUnfolded_of_append hunfolded)
    refine ⟨m', ?_, fun hflat => ?_⟩
    · rw [List.append_assoc, hread, hrest, hclose]
      simp
    · obtain ⟨hs, hw⟩ := List.forall_mem_append.1 hflat
      rw [hline' hw, hline hs]
      simp [Mark.past, Nat.add_assoc]

/-- **A string is read** between its quotes; if it breaks no line, it ends on its line. -/
theorem read_quoted {text : String} {s : List Char} (h : Json.Quoted portable text s) (rest : List Char) (m : Mark) :
    ∃ m', Quoted.read '"' [] .none ((s ++ rest).drop 1) m.next = some (text.toList, ⟨rest, m'⟩) ∧
      ((∀ x ∈ s, isBreak x = false) → m' = m.past s.length) := by
  obtain ⟨written, hw, hunfolded, rfl⟩ := h
  obtain ⟨m', hread, hline⟩ := @read_body rest _ _ hw [] .none m.next (.none (Nat.succ_ne_zero _)) hunfolded
  refine ⟨m', by simpa [Gap.close] using hread, fun hflat => ?_⟩
  rw [hline fun x hx => hflat x (by simp [hx])]
  simp [Mark.next, Mark.past, Nat.add_comm, Nat.add_left_comm]

end Read

end RunAudit.Yaml
