import RunAudit.Xml.Event

/-!
# Reading one markup after another

`Next` is the front of a text without the proof that what follows it is shorter. The tags of a text are the tag at
its front and the tags of what follows (`scan_eq`); `next_front_of_ne`, `next_front_lt` and the `next_markup` and
`next_declaration` lemmas say what the front is, by the characters that it begins with.
-/

namespace RunAudit.Xml

/-- What stands at the front of a text, and what follows it. -/
inductive Next where
  | done
  | fault (f : Fault)
  | ignored (rest : List Char)
  | item (i : Item) (rest : List Char)
  deriving DecidableEq, Repr

/-- A front without its proof. -/
def Front.next {s : List Char} : Front s → Next
  | .done => .done
  | .fault f => .fault f
  | .ignored rest _ => .ignored rest
  | .item i rest _ => .item i rest

@[simp] theorem Front.next_done {s : List Char} : (Front.done : Front s).next = .done := rfl

@[simp] theorem Front.next_fault {s : List Char} (f : Fault) : (Front.fault f : Front s).next = .fault f := rfl

@[simp]
theorem Front.next_ignored {s rest : List Char} (h : rest.length < s.length) :
    (Front.ignored rest h : Front s).next = .ignored rest := rfl

@[simp]
theorem Front.next_item {s rest : List Char} (i : Item) (h : rest.length < s.length) :
    (Front.item i rest h : Front s).next = .item i rest := rfl

@[simp]
theorem Front.next_within {s t : List Char} (f : Front s) (h : s.length ≤ t.length) : (f.within h).next = f.next := by
  cases f <;> rfl

/-- What follows markup is shorter than the text. -/
theorem Front.length_lt {s rest : List Char} (f : Front s)
    (h : f.next = .ignored rest ∨ ∃ i, f.next = .item i rest) : rest.length < s.length := by
  cases f with
  | done => simp at h
  | fault f => simp at h
  | ignored rest' shorter =>
    obtain rfl : rest' = rest := by simpa using h
    exact shorter
  | item i rest' shorter =>
    obtain rfl : rest' = rest := by simpa using h
    exact shorter

/-! ## The tags of a text -/

/-- A scan after some tags. -/
def Scan.after (found : List Item) (s : Scan) : Scan := ⟨found ++ s.items, s.fault⟩

@[simp] theorem Scan.after_nil (s : Scan) : s.after [] = s := rfl

@[simp]
theorem Scan.after_after (found found' : List Item) (s : Scan) :
    (s.after found').after found = s.after (found ++ found') := by
  simp [Scan.after]

/-- The tags from a front on. -/
def Next.scan : Next → Scan
  | .done => ⟨[], none⟩
  | .fault f => ⟨[], some f⟩
  | .ignored rest => Xml.scan rest
  | .item i rest => (Xml.scan rest).after [i]

/-- The tags found before only stand in front. -/
theorem scanFrom_eq (found : List Item) (s : List Char) : scanFrom found s = (scan s).after found.reverse := by
  induction hn : s.length using Nat.strongRecOn generalizing found s with
  | _ n ih =>
    rw [scan, scanFrom, scanFrom]
    cases front s with
    | done => simp [Scan.after]
    | fault f => simp [Scan.after]
    | ignored rest shorter => simp only [ih rest.length (hn ▸ shorter) _ rest rfl, List.reverse_nil, Scan.after_nil]
    | item i rest shorter =>
      have h := ih rest.length (hn ▸ shorter)
      simp only [h (i :: found) rest rfl, h [i] rest rfl, Scan.after_after, List.reverse_cons, List.reverse_nil,
        List.nil_append]

/-- **The tags of a text are those from its front on.** -/
theorem scan_eq (s : List Char) : scan s = (front s).next.scan := by
  rw [scan, scanFrom]
  cases front s with
  | done => rfl
  | fault f => rfl
  | ignored rest _ => rfl
  | item i rest _ => exact scanFrom_eq [i] rest

/-! ## Fronts -/

theorem next_front (s : List Char) :
    (front s).next = match s.dropWhile (· ≠ '<') with
      | [] => .done
      | _ :: rest => (markup rest).next := by
  unfold front
  split
  · rename_i h
    simp only [h, Front.next_done]
  · rename_i h
    simp only [h, Front.next_within]

theorem next_front_nil : (front []).next = .done := by simp [next_front]

theorem scan_nil : scan [] = ⟨[], none⟩ := by rw [scan_eq, next_front_nil, Next.scan]

/-- Character data is passed over. -/
theorem next_front_of_ne {c : Char} (h : c ≠ '<') (s : List Char) : (front (c :: s)).next = (front s).next := by
  simp [next_front, h]

/-- Markup begins at `<`. -/
theorem next_front_lt (s : List Char) : (front ('<' :: s)).next = (markup s).next := by simp [next_front]

theorem untilClose_cons (c : Char) (s : List Char) :
    untilClose (c :: s) = if c = '>' then [] else c :: untilClose s := by
  by_cases h : c = '>' <;> simp [untilClose, h]

theorem afterClose_cons (c : Char) (s : List Char) :
    afterClose (c :: s) = if c = '>' then s else afterClose s := by
  by_cases h : c = '>' <;> simp [afterClose, h]

/-- What precedes the first `>`. -/
theorem untilClose_of_not_mem : ∀ {s : List Char}, '>' ∉ s → ∀ rest, untilClose (s ++ '>' :: rest) = s
  | [], _, rest => by rw [List.nil_append, untilClose_cons, if_pos rfl]
  | c :: s, h, rest => by
    obtain ⟨hc, hs⟩ := not_or.1 (mt List.mem_cons.2 h)
    rw [List.cons_append, untilClose_cons, if_neg (Ne.symm hc), untilClose_of_not_mem hs]

/-- What follows the first `>`. -/
theorem afterClose_of_not_mem : ∀ {s : List Char}, '>' ∉ s → ∀ rest, afterClose (s ++ '>' :: rest) = rest
  | [], _, rest => by rw [List.nil_append, afterClose_cons, if_pos rfl]
  | c :: s, h, rest => by
    obtain ⟨hc, hs⟩ := not_or.1 (mt List.mem_cons.2 h)
    rw [List.cons_append, afterClose_cons, if_neg (Ne.symm hc), afterClose_of_not_mem hs]

/-- A closing tag runs up to the next `>`, or to the end. -/
theorem next_markup_slash (s : List Char) :
    (markup ('/' :: s)).next = .item (.closing (untilClose s)) (afterClose s) := by
  simp [markup]

/-- An instruction runs up to the next `>`, or to the end. -/
theorem next_markup_question (s : List Char) :
    (markup ('?' :: s)).next =
      if closesInstruction (untilClose s) then .ignored (afterClose s) else .fault (.unclosed .instruction) := by
  simp only [markup, Char.reduceEq, if_false, if_true]
  split <;> rfl

theorem next_markup_bang (s : List Char) : (markup ('!' :: s)).next = (declaration s).next := by simp [markup]

/-- A character that begins the content of a tag for an element. -/
def BeginsTag (c : Char) : Prop := c ≠ '!' ∧ c ≠ '/' ∧ c ≠ '?'

/-- A tag for an element runs up to the first `>` outside of quotes. -/
theorem next_markup_tag {c : Char} (h : BeginsTag c) (s : List Char) :
    (markup (c :: s)).next = match tagContent none [] (c :: s) with
      | some (content, rest) => .item (.ofContent content) rest
      | none => .fault (.unclosed .element) := by
  obtain ⟨h₁, h₂, h₃⟩ := h
  simp only [markup, h₁, h₂, h₃, if_false]
  split <;> simp_all

/-- A declaration that was split off: it is passed over unless something is wrong with its content. -/
def Next.ofSplit (split : Option (List Char × List Char)) (wrong : List Char → Option Fault) (f : Fault) : Next :=
  match split with
  | none => .fault f
  | some (content, rest) =>
    match wrong content with
    | some f => .fault f
    | none => .ignored rest

/-- What is wrong with a comment. -/
def wrongComment (content : List Char) : Option Fault :=
  if content.take 2 = ['-', '-'] then none else some (.unclosed .comment)

/-- What is wrong with a character data section. -/
def wrongCdata (content : List Char) : Option Fault :=
  if startsWithWord "[CDATA[".toList content.dropLast.dropLast then none else some (.unclosed .cdata)

/-- What is wrong with a document type. -/
def wrongDoctype (content : List Char) : Option Fault :=
  if !startsWithWord "DOCTYPE".toList content then some (.unclosed .doctype)
  else if (content.drop 7).all isSpace then some .emptyDoctype
  else none

theorem next_declaration_comment (s : List Char) :
    (declaration ('-' :: s)).next =
      .ofSplit (splitAtClose endsComment [] ('-' :: s)) wrongComment (.unclosed .comment) := by
  simp only [declaration, if_true, Next.ofSplit, wrongComment]
  split
  · rename_i hs
    simp only [hs]
    split <;> rfl
  · rename_i hs
    simp only [hs, Front.next_fault]

theorem next_declaration_cdata (s : List Char) :
    (declaration ('[' :: s)).next =
      .ofSplit (splitAtClose endsCdata [] ('[' :: s)) wrongCdata (.unclosed .cdata) := by
  simp only [declaration, Char.reduceEq, Next.ofSplit, wrongCdata, if_true, if_false]
  split
  · rename_i hs
    simp only [hs]
    split <;> rfl
  · rename_i hs
    simp only [hs, Front.next_fault]

theorem next_declaration_doctype {c : Char} (h : c = 'D' ∨ c = 'd') (s : List Char) :
    (declaration (c :: s)).next =
      .ofSplit (splitAtClose endsDoctype [] (c :: s)) wrongDoctype (.unclosed .doctype) := by
  have h₁ : c ≠ '-' := by rintro rfl; simp at h
  have h₂ : c ≠ '[' := by rintro rfl; simp at h
  simp only [declaration, h, h₁, h₂, Next.ofSplit, wrongDoctype, if_true, if_false]
  split
  · rename_i content rest hs
    simp only [hs]
    cases startsWithWord "DOCTYPE".toList content <;> cases (content.drop 7).all isSpace <;> rfl
  · rename_i hs
    simp only [hs, Front.next_fault]

theorem next_declaration_other {c : Char} (h₁ : c ≠ '-') (h₂ : c ≠ '[') (h₃ : ¬(c = 'D' ∨ c = 'd')) (s : List Char) :
    (declaration (c :: s)).next = .fault (.unknownDeclaration (Char.ofNat (Text.Utf8.leadOctet c))) := by
  simp only [declaration, h₁, h₂, h₃, if_false, Front.next_fault]

end RunAudit.Xml
