import RunAudit.Proofs.Xml.Front
import RunAudit.Proofs.Xml.Reference
import RunAudit.Xml.Document

/-!
# Tags as they are written

`AttributesWritten attributes s` says that `s` writes attributes behind a name: each after blanks, with blanks around
its `=` and its value escaped in either kind of quote. A tag with such attributes ends at the `>` after it
(`quiet_of_written`), and its element has the name and the attributes (`element_written`).
-/

namespace RunAudit.Xml

/-! ## Names -/

/-- A character of a name. -/
def isNameChar (c : Char) : Bool := !isClosingSpace c && !(['"', '\'', '<', '>', '/', '='].contains c)

/-- A name of a tag or an attribute: not empty, without white space, quotes, angle brackets, `/` and `=`, and other
than declarations and instructions begin. -/
def isName (name : String) : Bool :=
  name.toList.all isNameChar &&
    match name.toList with
    | [] => false
    | c :: _ => c != '!' && c != '?'

/-- Blanks, or nothing. -/
def Blank (s : List Char) : Prop := ∀ c ∈ s, isSpace c = true

theorem blank_nil : Blank [] := fun _ h => by cases h

theorem nameChar_ne {c x : Char} (h : isNameChar c = true) (hx : isNameChar x = false) : c ≠ x := by
  rintro rfl
  rw [h] at hx
  cases hx

theorem isSpace_of_nameChar {c : Char} (h : isNameChar c = true) : isSpace c = false := by
  cases hs : isSpace c with
  | false => rfl
  | true => simp [isNameChar, isClosingSpace, hs] at h

/-- A blank is neither a quote nor part of a tag's syntax. -/
theorem blank_ne {c x : Char} (h : isSpace c = true) (hx : isSpace x = false) : c ≠ x := by
  rintro rfl
  rw [h] at hx
  cases hx

section Name

variable {name : String} (h : isName name = true)
include h

theorem nameChar_of_mem : ∀ c ∈ name.toList, isNameChar c = true := by
  simp only [isName, Bool.and_eq_true, List.all_eq_true] at h
  exact h.1

/-- A name begins a tag. -/
theorem name_eq_cons : ∃ c rest, name.toList = c :: rest ∧ BeginsTag c := by
  have hc := nameChar_of_mem h
  simp only [isName, Bool.and_eq_true] at h
  cases hn : name.toList with
  | nil => simp [hn] at h
  | cons c rest =>
    simp only [hn, Bool.and_eq_true, bne_iff_ne] at h
    exact ⟨c, rest, rfl, h.2.1, nameChar_ne (hc c (by simp [hn])) (by decide), h.2.2⟩

theorem name_ne_of_mem {x : Char} (hx : isNameChar x = false) : ∀ c ∈ name.toList, c ≠ x :=
  fun c hc => nameChar_ne (nameChar_of_mem h c hc) hx

end Name

/-! ## Texts that quotes balance in -/

/-- A part of a tag that the end of the tag is not looked for in. -/
def Quiet (s : List Char) : Prop :=
  ∀ before rest, tagContent none before (s ++ rest) = tagContent none (s.reverse ++ before) rest

theorem quiet_nil : Quiet [] := fun _ _ => rfl

theorem Quiet.append {s t : List Char} (hs : Quiet s) (ht : Quiet t) : Quiet (s ++ t) := fun before rest => by
  rw [List.append_assoc, hs, ht, List.reverse_append, List.append_assoc]

/-- Without quotes and `>`, nothing ends the tag. -/
theorem quiet_plain : ∀ {s : List Char}, (∀ c ∈ s, c ≠ '>' ∧ ¬IsQuote c) → Quiet s
  | [], _ => quiet_nil
  | c :: s, h => fun before rest => by
    obtain ⟨hc, hq⟩ := h c List.mem_cons_self
    have ih := quiet_plain (fun x hx => h x (List.mem_cons_of_mem _ hx)) (c :: before) rest
    unfold IsQuote at hq
    simp [tagContent, hc, hq, ih]

theorem tagContent_quoted {quote : Char} : ∀ {raw : List Char}, quote ∉ raw → ∀ before rest : List Char,
    tagContent (some quote) before (raw ++ quote :: rest) = tagContent none (quote :: (raw.reverse ++ before)) rest
  | [], _, before, rest => by simp [tagContent]
  | c :: raw, h, before, rest => by
    obtain ⟨hc, hr⟩ := not_or.1 (mt List.mem_cons.2 h)
    rw [List.cons_append, tagContent, if_neg (Ne.symm hc), tagContent_quoted hr]
    simp

/-- A value between quotes does not end the tag, whatever is in it. -/
theorem quiet_quoted {quote : Char} (hq : IsQuote quote) {raw : List Char} (h : quote ∉ raw) :
    Quiet (quote :: (raw ++ [quote])) := fun before rest => by
  have hc : quote ≠ '>' := by rcases hq with rfl | rfl <;> decide
  have hq' : quote = '"' ∨ quote = '\'' := hq
  rw [List.cons_append, List.append_assoc, List.singleton_append, tagContent]
  simp only [hc, hq', if_true, if_false]
  rw [tagContent_quoted h]
  simp

theorem quiet_blank {s : List Char} (h : Blank s) : Quiet s :=
  quiet_plain fun c hc => ⟨blank_ne (h c hc) (by decide), by
    rintro (rfl | rfl)
    · exact absurd (h _ hc) (by decide)
    · exact absurd (h _ hc) (by decide)⟩

theorem quiet_name {name : String} (h : isName name = true) : Quiet name.toList :=
  quiet_plain fun c hc => ⟨name_ne_of_mem h (by decide) c hc, by
    rintro (rfl | rfl)
    · exact absurd (nameChar_of_mem h _ hc) (by decide)
    · exact absurd (nameChar_of_mem h _ hc) (by decide)⟩

/-- A tag ends at the first `>` behind its content. -/
theorem tagContent_of_quiet {s : List Char} (h : Quiet s) (rest : List Char) :
    tagContent none [] (s ++ '>' :: rest) = some (s, rest) := by
  rw [h [] ('>' :: rest)]
  simp [tagContent]

/-! ## Attributes -/

/-- **Attributes as they may be written** behind the name of a tag. -/
inductive AttributesWritten : Fields String → List Char → Prop
  | nil : AttributesWritten [] []
  | cons {key value : String} {attributes : Fields String} {blanks blanks' blanks'' raw s : List Char}
      {quote : Char} :
      isName key = true → blanks ≠ [] → Blank blanks → Blank blanks' → Blank blanks'' → IsQuote quote →
        Escaped quote value.toList raw → AttributesWritten attributes s →
          AttributesWritten ((key, value) :: attributes)
            (blanks ++ (key.toList ++ (blanks' ++ '=' :: (blanks'' ++ quote :: (raw ++ quote :: s)))))

theorem quiet_of_written {attributes : Fields String} {s : List Char} (h : AttributesWritten attributes s) :
    Quiet s := by
  induction h with
  | nil => exact quiet_nil
  | @cons key value attributes blanks blanks' blanks'' raw s quote hk _ hb hb' hb'' hq hr _ ih =>
    have he : Quiet ['='] := quiet_plain (by simp [IsQuote])
    have hv : Quiet (quote :: (raw ++ [quote])) := quiet_quoted hq (quote_not_mem_of_escaped hq hr)
    have := (quiet_blank hb).append ((quiet_name hk).append ((quiet_blank hb').append (he.append
      ((quiet_blank hb'').append (hv.append ih)))))
    simpa using this

theorem skipBlanks_append {blanks s : List Char} (hb : Blank blanks)
    (hs : ∀ c, s.head? = some c → isSpace c = false) :
    skipBlanks (blanks ++ s) = (blanks.length, s) := by
  have ht : s.takeWhile isSpace = [] := by
    cases s with
    | nil => rfl
    | cons c s => simp [hs c rfl]
  have hd : s.dropWhile isSpace = s := by
    cases s with
    | nil => rfl
    | cons c s => simp [hs c rfl]
  simp only [skipBlanks, List.takeWhile_append_of_pos hb, List.dropWhile_append_of_pos hb, ht, hd, List.append_nil]

/-- An equals sign after blanks. -/
theorem equalsSign_append {blanks : List Char} (hb : Blank blanks) (total place : Nat) (s : List Char) :
    equalsSign total place (blanks ++ '=' :: s) = .ok (place + blanks.length, s) := by
  rw [equalsSign, skipBlanks_append hb (by rintro c ⟨⟩; decide)]
  simp

/-- A value in quotes after blanks. -/
theorem quotedValue_append {blanks raw : List Char} {quote : Char} (hb : Blank blanks) (hq : IsQuote quote)
    (hr : quote ∉ raw) (total place : Nat) (s : List Char) :
    quotedValue total place (blanks ++ quote :: (raw ++ quote :: s)) = .ok (raw, s) := by
  have hne : ∀ c ∈ raw, (c ≠ quote) = true := fun c hc => by simp; rintro rfl; exact hr hc
  have hd : (raw ++ quote :: s).dropWhile (· ≠ quote) = quote :: s := by
    rw [List.dropWhile_append_of_pos fun c hc => by simpa using hne c hc]
    simp
  have ht : (raw ++ quote :: s).takeWhile (· ≠ quote) = raw := by
    rw [List.takeWhile_append_of_pos fun c hc => by simpa using hne c hc]
    simp
  have hq' : quote = '"' ∨ quote = '\'' := hq
  have hs : isSpace quote = false := by rcases hq with rfl | rfl <;> decide
  rw [quotedValue, skipBlanks_append hb (by rintro c ⟨⟩; exact hs)]
  simp only [hq', if_true, hd, ht]

/-- A key that was not used before. -/
theorem checkUnused_of_ne {seen : List (List Char × Nat)} {key : List Char} (h : ∀ entry ∈ seen, entry.1 ≠ key)
    (place : Nat) : checkUnused seen key place = .ok () := by
  have : seen.find? (fun entry => entry.1 == key) = none :=
    List.find?_eq_none.2 fun entry he => by simpa using h entry he
  simp [checkUnused, this]

/-- One attribute, from what its parts are read as. -/
theorem attributesFrom_step {total place blanks sign : Nat} {seen : List (List Char × Nat)}
    (read : List (String × String)) {first : Char} {s tail key behind rest raw after value : List Char}
    (hs : skipBlanks s = (blanks, first :: tail)) (hkey : first :: tail.takeWhile (fun c => !endsKey c) = key)
    (hbehind : tail.dropWhile (fun c => !endsKey c) = behind)
    (he : equalsSign total (place + blanks + Text.Utf8.size key) behind = .ok (sign, rest))
    (hu : checkUnused seen key (place + blanks) = .ok ()) (hv : quotedValue total sign rest = .ok (raw, after))
    (hr : unescape raw = .ok value) :
    ∃ place', attributesFrom total seen read place s =
      attributesFrom total ((key, place + blanks) :: seen) ((String.ofList key, String.ofList value) :: read)
        place' after := by
  subst hkey hbehind
  refine ⟨place + (Text.Utf8.size s - Text.Utf8.size after), ?_⟩
  rw [attributesFrom]
  split
  · rename_i h
    rw [hs] at h
    cases h
  · rename_i h
    rw [hs] at h
    cases h
    dsimp only
    split
    · rename_i h
      rw [he] at h
      cases h
    · rename_i h
      rw [he] at h
      cases h
      rw [hu]
      dsimp only
      split
      · rename_i h
        rw [hv] at h
        cases h
      · rename_i h
        rw [hv] at h
        cases h
        rw [hr]

/-- **One attribute is read** and kept as used. -/
theorem attributesFrom_cons (total place : Nat) {seen : List (List Char × Nat)} (read : List (String × String))
    {blanks blanks' blanks'' raw : List Char} (after : List Char) {key value : String} {quote : Char}
    (hk : isName key = true) (hb : Blank blanks) (hb' : Blank blanks') (hb'' : Blank blanks'') (hq : IsQuote quote)
    (hr : Escaped quote value.toList raw) (hu : ∀ entry ∈ seen, entry.1 ≠ key.toList) :
    ∃ start place', attributesFrom total seen read place
        (blanks ++ (key.toList ++ (blanks' ++ '=' :: (blanks'' ++ quote :: (raw ++ quote :: after))))) =
      attributesFrom total ((key.toList, start) :: seen) ((key, value) :: read) place' after := by
  obtain ⟨first, tail, hn, _⟩ := name_eq_cons hk
  have hc := nameChar_of_mem hk
  rw [hn] at hc
  have hfirst : isSpace first = false := isSpace_of_nameChar (hc first List.mem_cons_self)
  have htail : ∀ c ∈ tail, (!endsKey c) = true := fun c h => by
    have h' := hc c (List.mem_cons_of_mem _ h)
    have he : c ≠ '=' := nameChar_ne h' (by decide)
    simp [endsKey, he, isSpace_of_nameChar h']
  -- what follows the key begins with a blank or the equals sign
  obtain ⟨x, rest, hx, hrest⟩ : ∃ x rest, blanks' ++ '=' :: (blanks'' ++ quote :: (raw ++ quote :: after)) =
      x :: rest ∧ endsKey x = true := by
    cases blanks' with
    | nil => exact ⟨_, _, rfl, by decide⟩
    | cons x blanks' => exact ⟨x, _, rfl, by simp [endsKey, hb' x List.mem_cons_self]⟩
  have hkey : first :: (tail ++ (x :: rest)).takeWhile (fun c => !endsKey c) = key.toList := by
    rw [List.takeWhile_append_of_pos htail, hn]
    simp [hrest]
  have hbehind : (tail ++ (x :: rest)).dropWhile (fun c => !endsKey c) = x :: rest := by
    rw [List.dropWhile_append_of_pos htail]
    simp [hrest]
  have hs : skipBlanks (blanks ++ first :: (tail ++ (x :: rest))) = (blanks.length, first :: (tail ++ (x :: rest))) :=
    skipBlanks_append hb (by rintro c ⟨⟩; exact hfirst)
  obtain ⟨place', h⟩ := attributesFrom_step read hs hkey (hbehind.trans hx.symm)
    (equalsSign_append hb' total _ _) (checkUnused_of_ne hu _)
    (quotedValue_append hb'' hq (quote_not_mem_of_escaped hq hr) total _ _) (unescape_of_escaped hr)
  refine ⟨place + blanks.length, place', ?_⟩
  rw [hn, hx, List.cons_append, h, hn, String.ofList_toList, ← hn, String.ofList_toList]

/-- **Attributes are read in order** when no key is used twice; blanks may follow them. -/
theorem attributesFrom_written (total : Nat) {attributes : Fields String} {s blanks : List Char}
    (h : AttributesWritten attributes s) (hb : Blank blanks) (hd : (attributes.map Prod.fst).Nodup) :
    ∀ {seen : List (List Char × Nat)} (read : List (String × String)) (place : Nat),
      (∀ entry ∈ seen, ∀ key ∈ attributes.map Prod.fst, entry.1 ≠ key.toList) →
        attributesFrom total seen read place (s ++ blanks) = .ok (read.reverse ++ attributes) := by
  induction h with
  | nil =>
    intro seen read place _
    have hs : skipBlanks ([] ++ blanks) = (blanks.length, []) := by
      simpa using skipBlanks_append (s := []) hb (by rintro c ⟨⟩)
    rw [attributesFrom]
    split
    · simp
    · rename_i h
      rw [hs] at h
      cases h
  | @cons key value attributes blanks₁ blanks₂ blanks₃ raw s quote hk _ hb₁ hb₂ hb₃ hq hr _ ih =>
    intro seen read place hu
    obtain ⟨hkey, hd⟩ := List.nodup_cons.1 hd
    obtain ⟨start, place', h⟩ := attributesFrom_cons total place read (s ++ blanks)
      hk hb₁ hb₂ hb₃ hq hr fun entry he => hu entry he key List.mem_cons_self
    have hu' : ∀ entry ∈ (key.toList, start) :: seen, ∀ k ∈ attributes.map Prod.fst, entry.1 ≠ k.toList := by
      intro entry he k hk'
      rcases List.mem_cons.1 he with rfl | he
      · intro e
        exact hkey (String.toList_inj.1 e ▸ hk')
      · exact hu entry he k (List.mem_cons_of_mem _ hk')
    have := ih hd ((key, value) :: read) place' hu'
    simp only [List.append_assoc, List.cons_append] at h ⊢
    rw [h, this]
    simp

/-- Blanks stand in front of attributes. -/
theorem isSpace_of_head {attributes : Fields String} {s blanks : List Char} (h : AttributesWritten attributes s)
    (hb : Blank blanks) : ∀ c, (s ++ blanks).head? = some c → isSpace c = true := by
  intro c hc
  cases h with
  | nil => exact hb c (List.mem_of_mem_head? hc)
  | @cons _ _ _ blanks₁ _ _ _ _ _ _ hne hb₁ =>
    cases blanks₁ with
    | nil => exact absurd rfl hne
    | cons x blanks₁ =>
      cases hc
      exact hb₁ _ List.mem_cons_self

/-- A text that does not end in a `/`. -/
def NoSlashAtEnd (s : List Char) : Prop := s.getLast? ≠ some '/'

theorem NoSlashAtEnd.append {s t : List Char} (hs : NoSlashAtEnd s) (ht : NoSlashAtEnd t) :
    NoSlashAtEnd (s ++ t) := by
  unfold NoSlashAtEnd at *
  rw [List.getLast?_append]
  cases h : t.getLast? with
  | none => simpa using hs
  | some c => simpa [h] using ht

theorem noSlashAtEnd_of_mem {s : List Char} (h : ∀ c ∈ s, c ≠ '/') : NoSlashAtEnd s :=
  fun e => h _ (List.mem_of_getLast? e) rfl

theorem noSlashAtEnd_of_written {attributes : Fields String} {s : List Char} (h : AttributesWritten attributes s) :
    NoSlashAtEnd s := by
  induction h with
  | nil => exact noSlashAtEnd_of_mem (fun _ h => by cases h)
  | @cons key value attributes blanks₁ blanks₂ blanks₃ raw s quote _ _ _ _ _ hq _ _ ih =>
    have hv : NoSlashAtEnd
        (blanks₁ ++ (key.toList ++ (blanks₂ ++ '=' :: (blanks₃ ++ quote :: (raw ++ [quote]))))) := by
      have : quote ≠ '/' := by rcases hq with rfl | rfl <;> decide
      simpa [NoSlashAtEnd, List.getLast?_append, List.getLast?_cons] using this
    have := hv.append ih
    simpa using this

/-! ## Tags -/

section Tag

variable {tag : String} {attributes : Fields String} {a blanks : List Char} (ht : isName tag = true)
  (ha : AttributesWritten attributes a) (hb : Blank blanks)
include ht

theorem isSpace_of_mem_name : ∀ c ∈ tag.toList, (!isSpace c) = true := fun c hc => by
  rw [isSpace_of_nameChar (nameChar_of_mem ht c hc)]
  rfl

/-- The name of a closing tag, without the blanks behind it. -/
theorem closingName_append {blanks : List Char} (hb : Blank blanks) :
    closingName (tag.toList ++ blanks) = tag.toList := by
  obtain ⟨c, rest, hn, _⟩ := name_eq_cons ht
  have hc : ∀ c ∈ tag.toList, isClosingSpace c = false := fun c hc => by
    have := nameChar_of_mem ht c hc
    unfold isNameChar at this
    simp only [Bool.and_eq_true, Bool.not_eq_true'] at this
    exact this.1
  have hb' : ∀ c ∈ blanks.reverse, isClosingSpace c = true := fun c h => by
    simp [isClosingSpace, hb c (List.mem_reverse.1 h)]
  have hall : (tag.toList ++ blanks).all isClosingSpace = false := by
    simp [hn, hc c (by simp [hn])]
  have hd : tag.toList.reverse.dropWhile isClosingSpace = tag.toList.reverse := by
    cases hr : tag.toList.reverse with
    | nil => rfl
    | cons x rest =>
      have hx : isClosingSpace x = false := hc x (List.mem_reverse.1 (by simp [hr]))
      simp [hx]
  unfold closingName
  rw [hall, List.reverse_append, List.dropWhile_append_of_pos hb', hd, List.reverse_reverse]
  rfl

/-- Markup that begins with a name is a tag. -/
theorem next_markup_of_name {s content rest : List Char}
    (h : tagContent none [] (tag.toList ++ s) = some (content, rest)) :
    (markup (tag.toList ++ s)).next = .item (.ofContent content) rest := by
  obtain ⟨c, name, hn, hc⟩ := name_eq_cons ht
  rw [hn, List.cons_append] at h ⊢
  rw [next_markup_tag hc, h]

include ha hb

/-- The name of a tag. -/
theorem nameOf_written : nameOf (tag.toList ++ (a ++ blanks)) = tag.toList := by
  have h := isSpace_of_head ha hb
  unfold nameOf
  rw [List.takeWhile_append_of_pos (isSpace_of_mem_name ht)]
  cases hs : a ++ blanks with
  | nil => simp
  | cons c s =>
    rw [hs] at h
    simp [h c rfl]

/-- **The element of a tag** has its name and its attributes. -/
theorem element_written (hd : (attributes.map Prod.fst).Nodup) :
    Builder.element (tag.toList ++ (a ++ blanks)) = .ok ⟨tag, attributes, #[]⟩ := by
  have hn := nameOf_written ht ha hb
  have hr : Xml.attributes (tag.toList ++ (a ++ blanks)) = .ok attributes := by
    unfold Xml.attributes
    dsimp only
    rw [hn, List.drop_left, attributesFrom_written _ ha hb hd [] _ (by rintro _ ⟨⟩)]
    rfl
  rw [Builder.element, hr, hn]
  simp

theorem noSlashAtEnd_tag : NoSlashAtEnd (tag.toList ++ (a ++ blanks)) :=
  (noSlashAtEnd_of_mem (name_ne_of_mem ht (by decide))).append
    ((noSlashAtEnd_of_written ha).append (noSlashAtEnd_of_mem fun c hc => blank_ne (hb c hc) (by decide)))

/-- A tag that is written without a `/` at its end opens an element. -/
theorem ofContent_opening :
    Item.ofContent (tag.toList ++ (a ++ blanks)) = .opening (tag.toList ++ (a ++ blanks)) := by
  have h := noSlashAtEnd_tag ht ha hb
  unfold NoSlashAtEnd at h
  rw [Item.ofContent, if_neg h]

/-- The markup of a tag, with or without the `/` at its end. -/
theorem next_markup_written (s : List Char) :
    (markup (tag.toList ++ (a ++ (blanks ++ '>' :: s)))).next = .item (.opening (tag.toList ++ (a ++ blanks))) s ∧
      (markup (tag.toList ++ (a ++ (blanks ++ '/' :: '>' :: s)))).next =
        .item (.empty (tag.toList ++ (a ++ blanks))) s := by
  have hq : Quiet (tag.toList ++ (a ++ blanks)) :=
    (quiet_name ht).append ((quiet_of_written ha).append (quiet_blank hb))
  have hs : Quiet ['/'] := quiet_plain (by simp [IsQuote])
  have ho := tagContent_of_quiet hq s
  have he := tagContent_of_quiet (hq.append hs) s
  simp only [List.append_assoc, List.singleton_append] at ho he
  constructor
  · rw [next_markup_of_name ht ho, ofContent_opening ht ha hb]
  · rw [next_markup_of_name ht he]
    simp [Item.ofContent, List.getLast?_append, List.getLast?_cons, List.dropLast_append_of_ne_nil]

end Tag

end RunAudit.Xml
