import RunAudit.Proofs.Text.Utf8
import RunAudit.Text.Ansi

/-!
# What a terminal prints

`Prints s octets t shown` says that octets take a terminal from `s` to `t` and print `shown`; such runs compose
(`Prints.append`). A text without `ESC` leaves the terminal between two sequences and prints itself, less its control
characters (`prints_chars`); a graphic rendition prints nothing (`prints_rendition`). Whatever the octets, no control
character but the line feed is printed (`isShown_of_mem_strip`).
-/

namespace RunAudit.Text.Ansi

/-- The characters that show: the line feed, and all from the blank on. -/
def isShown (c : Char) : Bool := c = '\n' || ' ' ≤ c

theorem isShown_of_le {c : Char} (h : 0x20 ≤ c.toNat) : isShown c = true := by
  have hle : ' ' ≤ c := h
  rw [isShown, decide_eq_true hle, Bool.or_true]

theorem toNat_ofNat {n : Nat} (h : n < 0x80) : (Char.ofNat n).toNat = n := by
  rw [Char.ofNat, dif_pos (show n.isValidChar from .inl (by omega))]
  rfl

/-! ## Runs of a terminal -/

/-- Octets that take a terminal from one state to another, and what they print. -/
inductive Prints : State → List UInt8 → State → List Char → Prop
  | nil (s : State) : Prints s [] s []
  | cons {s t u : State} {b : UInt8} {rest : List UInt8} {shown after : List Char} :
      step s b = (t, shown) → Prints t rest u after → Prints s (b :: rest) u (shown ++ after)

namespace Prints

variable {s t u : State} {octets rest : List UInt8} {shown after : List Char}

/-- A run of one octet. -/
theorem single {b : UInt8} (h : step s b = (t, shown)) : Prints s [b] t shown := by
  have := cons h (nil t)
  rwa [List.append_nil] at this

/-- Runs compose. -/
theorem append (h : Prints s octets t shown) (h' : Prints t rest u after) :
    Prints s (octets ++ rest) u (shown ++ after) := by
  induction h with
  | nil s => exact h'
  | cons hstep _ ih =>
    rw [List.append_assoc]
    exact cons hstep (ih h')

/-- An octet that prints nothing, in front of a run. -/
theorem silent {b : UInt8} (h : step s b = (t, [])) (h' : Prints t rest u after) : Prints s (b :: rest) u after :=
  cons h h'

theorem stripFrom (h : Prints s octets t shown) (printed : List Char) :
    stripFrom s printed octets = printed.reverse ++ shown := by
  induction h generalizing printed with
  | nil s => rw [Ansi.stripFrom, List.append_nil]
  | @cons s t u b rest shown after hstep _ ih =>
    rw [Ansi.stripFrom, hstep]
    exact (ih _).trans (by rw [List.reverse_append, List.reverse_reverse, List.append_assoc])

/-- **A run from the ground** prints what is kept of its octets. -/
theorem strip (h : Prints .ground octets t shown) : strip octets = shown := h.stripFrom []

end Prints

/-! ## Texts and renditions -/

theorem characterOf_encode (c : Char) : characterOf (String.utf8EncodeChar c).reverse = [c] := by
  have hoctets : (String.singleton c).toUTF8 = ⟨(String.utf8EncodeChar c).toArray⟩ := by
    apply ByteArray.ext
    rw [String.toUTF8_eq_toByteArray, ← String.utf8Encode_toList, List.utf8Encode, String.toList_singleton,
      List.flatMap_singleton, List.data_toByteArray]
  rw [characterOf, List.reverse_reverse, ← hoctets, Utf8.fromUTF8?_toUTF8]
  exact String.toList_singleton c

/-- The octets that complete a character print it. -/
theorem prints_completes {need : Utf8.Need} {rest : List UInt8} (h : Utf8.Completes need rest) (seen : List UInt8) :
    Prints (.character need seen) rest .ground (characterOf (rest.reverse ++ seen)) := by
  induction h generalizing seen with
  | last hstep => exact .single (by simp only [step, hstep, List.reverse_singleton, List.singleton_append])
  | @next need after b rest hstep hafter _ ih =>
    rw [List.reverse_cons, List.append_assoc, List.singleton_append]
    refine .silent ?_ (ih (b :: seen))
    cases after with
    | start => exact absurd rfl hafter
    | tail1 | tail2 | tail3 | afterE0 | afterED | afterF0 | afterF4 => simp only [step, hstep]

theorem step_ground_of_lt : ∀ n < 0x80, n ≠ 0x1B →
    step .ground (.ofNat n) = (.ground, [Char.ofNat n].filter isShown) := by
  decide +kernel

theorem step_ground_of_le {b : UInt8} (h : 0x80 ≤ b) {need : Utf8.Need} (hneed : Utf8.Need.ofLead b = some need) :
    step .ground b = (.character need [b], []) := by
  have hb : 128 ≤ b.toNat := UInt8.le_iff_toNat_le.1 h
  have hne {k : UInt8} (hk : k.toNat < 128) : b ≠ k := fun heq => by rw [heq] at hb; omega
  have hlt : ¬ b < 0x80 := fun hlt => absurd (UInt8.lt_iff_toNat_lt.1 hlt) (Nat.not_lt.2 hb)
  have hcontrol : ¬ b < 0x20 := fun hlt => by
    have : b.toNat < 32 := UInt8.lt_iff_toNat_lt.1 hlt
    omega
  show (if b = 0x18 ∨ b = 0x1A then _ else if b = 0x1B then _ else ground b) = _
  rw [if_neg (not_or.2 ⟨hne (by decide), hne (by decide)⟩), if_neg (hne (by decide)), ground,
    if_neg fun h => hlt h.2, if_neg hcontrol, hneed]

/-- **A character** other than `ESC` prints itself, if it shows. -/
theorem prints_char {c : Char} (h : c ≠ '\x1b') :
    Prints .ground (String.utf8EncodeChar c) .ground ([c].filter isShown) := by
  by_cases hc : c.toNat < 0x80
  · have hn : c.toNat ≠ 0x1B := fun heq => h (Char.toNat_inj.1 heq)
    rw [Utf8.encode_of_lt hc]
    have := step_ground_of_lt c.toNat hc hn
    rw [Char.ofNat_toNat] at this
    exact .single this
  · obtain ⟨b, need, rest, hencode, hb, hneed, hrest⟩ := Utf8.exists_completes (Nat.le_of_not_lt hc)
    have hrun := Prints.silent (step_ground_of_le hb hneed) (prints_completes hrest [b])
    rw [← List.reverse_cons, ← hencode, characterOf_encode] at hrun
    rw [List.filter_cons_of_pos (isShown_of_le (by omega)), List.filter_nil]
    exact hrun

/-- **A text without `ESC`** prints its characters that show. -/
theorem prints_chars : ∀ {text : List Char}, '\x1b' ∉ text →
    Prints .ground (text.flatMap String.utf8EncodeChar) .ground (text.filter isShown)
  | [], _ => .nil _
  | c :: rest, h => by
    rw [List.flatMap_cons, ← List.singleton_append, List.filter_append]
    exact (prints_char fun heq => h (heq ▸ List.mem_cons_self)).append
      (prints_chars fun hmem => h (List.mem_cons_of_mem c hmem))

theorem step_parameter : ∀ n < 0x3C, 0x30 ≤ n →
    step .csiEntry (.ofNat n) = (.csiParam, []) ∧ step .csiParam (.ofNat n) = (.csiParam, []) := by
  decide +kernel

/-- The characters of the parameters of a sequence: digits, colons and semicolons. -/
def isParameter (c : Char) : Bool := 0x30 ≤ c.toNat ∧ c.toNat < 0x3C

/-- Parameters up to the `m` of a graphic rendition print nothing. -/
theorem prints_parameters {s : State} (hs : s = .csiEntry ∨ s = .csiParam) : ∀ {parameters : List Char},
    (∀ c ∈ parameters, isParameter c = true) →
    Prints s ((parameters ++ ['m']).flatMap String.utf8EncodeChar) .ground []
  | [], _ => .single (by rcases hs with rfl | rfl <;> rfl)
  | c :: rest, h => by
    obtain ⟨hlow, hhigh⟩ := of_decide_eq_true (h c List.mem_cons_self)
    obtain ⟨hentry, hparam⟩ := step_parameter c.toNat hhigh hlow
    rw [List.cons_append, List.flatMap_cons, Utf8.encode_of_lt (by omega), List.singleton_append]
    refine .silent ?_ (prints_parameters (.inr rfl) fun d hd => h d (List.mem_cons_of_mem c hd))
    rcases hs with rfl | rfl
    · exact hentry
    · exact hparam

/-- **A graphic rendition** prints nothing. -/
theorem prints_rendition {parameters : List Char} (h : ∀ c ∈ parameters, isParameter c = true) :
    Prints .ground (('\x1b' :: '[' :: parameters ++ ['m']).flatMap String.utf8EncodeChar) .ground [] :=
  .silent (t := .escape) rfl (.silent (t := .csiEntry) rfl (prints_parameters (.inl rfl) h))

/-! ## What can be printed -/

/-- Inside a character stand octets beyond the first 128 only. -/
def State.WellFormed : State → Prop
  | .character need seen => need ≠ .start ∧ ∀ b ∈ seen, 0x80 ≤ b
  | _ => True

/-- A step that leaves the terminal well-formed and prints only what shows. -/
def Sound (r : State × List Char) : Prop := r.1.WellFormed ∧ ∀ c ∈ r.2, isShown c = true

theorem Sound.ite {p : Prop} [Decidable p] {r r' : State × List Char} (h : Sound r) (h' : Sound r') :
    Sound (if p then r else r') := by
  split
  · exact h
  · exact h'

theorem sound_silent {s : State} (h : s.WellFormed) : Sound (s, []) := ⟨h, by simp⟩

theorem sound_executed {s : State} (h : s.WellFormed) (b : UInt8) : Sound (s, executed b) := by
  refine ⟨h, fun c hc => ?_⟩
  simp only [executed] at hc
  split at hc
  · rw [List.mem_singleton.1 hc]
    rfl
  · cases hc

theorem sound_characterOf {seen : List UInt8} (h : ∀ b ∈ seen, 0x80 ≤ b) : Sound (.ground, characterOf seen) := by
  refine ⟨trivial, fun c hc => ?_⟩
  simp only [characterOf] at hc
  split at hc
  · rename_i text htext
    have := Utf8.le_of_mem_of_fromUTF8? (fun b hb => h b (List.mem_reverse.1 hb)) htext c hc
    exact isShown_of_le (by omega)
  · cases hc

theorem sound_ground (b : UInt8) : Sound (ground b) := by
  rw [ground]
  split
  · rename_i hb
    have hlow : 32 ≤ b.toNat := UInt8.le_iff_toNat_le.1 hb.1
    have hhigh : b.toNat < 128 := UInt8.lt_iff_toNat_lt.1 hb.2
    refine ⟨trivial, fun c hc => ?_⟩
    rw [List.mem_singleton.1 hc]
    exact isShown_of_le (by rw [toNat_ofNat hhigh]; exact hlow)
  · rename_i hprintable
    split
    · exact sound_executed (s := .ground) trivial b
    · rename_i hlow
      have hb : 0x80 ≤ b := by grind
      split
      · rename_i need hneed
        exact sound_silent ⟨Utf8.ofLead_ne_start hb hneed, fun x hx => List.mem_singleton.1 hx ▸ hb⟩
      · exact sound_silent (s := .ground) trivial

theorem sound_escape (b : UInt8) : Sound (escape b) :=
  .ite (sound_executed (s := .escape) trivial b) <| .ite (sound_silent trivial) <| .ite (sound_silent trivial) <|
    .ite (sound_silent trivial) <| .ite (sound_silent trivial) <| .ite (sound_silent trivial) <|
      .ite (sound_silent trivial) (sound_silent trivial)

theorem sound_control (state parameter marker : State) (hs : state.WellFormed) (hp : parameter.WellFormed)
    (hm : marker.WellFormed) (b : UInt8) : Sound (control state parameter marker b) :=
  .ite (sound_executed hs b) <| .ite (sound_silent trivial) <| .ite (sound_silent hp) <| .ite (sound_silent hm) <|
    .ite (sound_silent trivial) (sound_silent hs)

theorem wellFormed_device (state parameter marker : State) (hs : state.WellFormed) (hp : parameter.WellFormed)
    (hm : marker.WellFormed) (b : UInt8) : (device state parameter marker b).WellFormed := by
  rw [device]
  repeat' split
  all_goals first | exact hs | exact hp | exact hm | trivial

theorem sound_character {need : Utf8.Need} {seen : List UInt8} (h : (State.character need seen).WellFormed)
    (b : UInt8) : Sound (step (.character need seen) b) := by
  obtain ⟨hneed, hseen⟩ := h
  have hall {next : Utf8.Need} (hstep : need.step b = some next) : ∀ x ∈ b :: seen, 0x80 ≤ x := fun x hx => by
    rcases List.mem_cons.1 hx with rfl | hx
    · exact Utf8.le_of_step hneed hstep
    · exact hseen x hx
  simp only [step]
  split
  · rename_i hstep
    exact sound_characterOf (hall hstep)
  · rename_i next hnext hstep
    exact sound_silent ⟨hnext, hall hstep⟩
  · exact ⟨trivial, by simp [isShown]⟩

/-- Outside a character `CAN`, `SUB` and `ESC` end what went before. -/
theorem sound_outside {r : State × List Char} (h : Sound r) (b : UInt8) :
    Sound (if b = 0x18 ∨ b = 0x1A then (.ground, []) else if b = 0x1B then (.escape, []) else r) :=
  .ite (sound_silent trivial) (.ite (sound_silent trivial) h)

theorem sound_step {s : State} (h : s.WellFormed) (b : UInt8) : Sound (step s b) := by
  cases s with
  | character need seen => exact sound_character h b
  | ground => exact sound_outside (sound_ground b) b
  | escape => exact sound_outside (sound_escape b) b
  | escapeIntermediate | csiIgnore =>
    refine sound_outside (.ite (sound_executed h b) ?_) b
    exact .ite (sound_silent trivial) (sound_silent h)
  | csiEntry => exact sound_outside (sound_control .csiEntry .csiParam .csiParam h trivial trivial b) b
  | csiParam => exact sound_outside (sound_control .csiParam .csiParam .csiIgnore h trivial trivial b) b
  | csiIntermediate => exact sound_outside (sound_control .csiIntermediate .csiIgnore .csiIgnore h trivial trivial b) b
  | dcsEntry =>
    exact sound_outside (sound_silent (wellFormed_device .dcsEntry .dcsParam .dcsParam h trivial trivial b)) b
  | dcsParam =>
    exact sound_outside (sound_silent (wellFormed_device .dcsParam .dcsParam .dcsIgnore h trivial trivial b)) b
  | dcsIntermediate =>
    exact sound_outside (sound_silent (wellFormed_device .dcsIntermediate .dcsIgnore .dcsIgnore h trivial trivial b)) b
  | dcsIgnore | dcsPassthrough | string | osc =>
    refine sound_outside (sound_silent ?_) b
    split
    · trivial
    · exact h

theorem isShown_of_mem_stripFrom {s : State} (hs : s.WellFormed) (octets : List UInt8) {printed : List Char}
    (hprinted : ∀ c ∈ printed, isShown c = true) : ∀ c ∈ stripFrom s printed octets, isShown c = true := by
  induction octets generalizing s printed with
  | nil => exact fun c hc => hprinted c (List.mem_reverse.1 hc)
  | cons b rest ih =>
    obtain ⟨hnext, hshown⟩ := sound_step hs b
    refine ih hnext fun c hc => ?_
    rcases List.mem_append.1 hc with hc | hc
    · exact hshown c (List.mem_reverse.1 hc)
    · exact hprinted c hc

/-- **Octets print no control character** but the line feed. -/
theorem isShown_of_mem_strip (octets : List UInt8) : ∀ c ∈ strip octets, isShown c = true :=
  isShown_of_mem_stripFrom (s := .ground) trivial octets (by simp)

end RunAudit.Text.Ansi
