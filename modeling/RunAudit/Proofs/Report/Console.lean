import RunAudit.Proofs.Report.Agreement
import RunAudit.Proofs.Text.Ansi
import RunAudit.Stream.Output

/-!
# What a terminal shows of a report

The colours of a report for a terminal print nothing (`prints_shownLabel`), and the words of the program itself show
(`isShown_or_mem_spoken`, `shows_tallyLine`). What checks are called and what they say goes through the terminal with
the colours: their control characters are lost, and an `ESC` among them begins a sequence of its own. So a coloured
report shows as the plain one is written just when no check brings a control character other than the line feed
(`stripped_write`).
-/

namespace RunAudit.Report.Console

open RunAudit.Check RunAudit.Stream RunAudit.Text RunAudit.Text.Ansi

/-! ## The words of a report -/

/-- What a check brings to its lines: its name and its message. -/
def spoken (o : Outcome) : List Char := o.name.toList ++ (o.status.message.getD "").toList

/-- The lines on a check, behind its label. -/
def afterLabel (o : Outcome) : String :=
  " " ++ o.name ++ s!" ({o.duration.toNat}ms)\n" ++
    match o.status.message with
    | some message => "    " ++ message ++ "\n"
    | none => ""

theorem outcomeLines_eq (coloured : Bool) (o : Outcome) :
    outcomeLines coloured o = shownLabel coloured o.status ++ afterLabel o := by
  rw [outcomeLines, afterLabel]
  cases o.status.message <;> simp only [String.append_assoc]

/-- Texts of which every character shows. -/
def Shows (text : List Char) : Prop := ∀ c ∈ text, isShown c = true

theorem shows_words {words : List String} (h : (words.all fun word => word.toList.all isShown) = true) :
    ∀ word ∈ words, Shows word.toList := fun word hw => List.all_eq_true.1 (List.all_eq_true.1 h word hw)

theorem shows_append_iff {a b : List Char} : Shows (a ++ b) ↔ Shows a ∧ Shows b := List.forall_mem_append

theorem shows_join_iff : ∀ {lines : List String}, Shows (String.join lines).toList ↔ ∀ s ∈ lines, Shows s.toList
  | [] => by simp [Shows]
  | s :: rest => by
    rw [String.join_cons, String.toList_append, shows_append_iff, shows_join_iff, List.forall_mem_cons]

/-- A text that shows has no `ESC`. -/
theorem Shows.not_mem {text : List Char} (h : Shows text) : '\x1b' ∉ text := fun hc => by cases h _ hc

theorem shows_toString (n : Nat) : Shows (toString n).toList := fun c hc => by
  rw [Digit.toList_toString] at hc
  have hdigit : 48 ≤ c.toNat ∧ c.toNat ≤ 57 := Char.isDigit_iff_toNat.1 (Digit.isDigit_of_mem c hc)
  exact isShown_of_le (by omega)

theorem shows_label (s : Status) : Shows (label s).toList :=
  @shows_words ["PASS", "FAIL", "ERROR", "SKIP"] (by decide +kernel) (label s) (by cases s <;> simp [label])

/-- A graphic rendition is numbers with semicolons between them. -/
theorem isParameter_of_mem_rendition (s : Status) : ∀ c ∈ (rendition s).toList, isParameter c = true := by
  have hall : ∀ text ∈ ["32", "31", "1;31", "33"], text.toList.all isParameter = true := by decide +kernel
  exact List.all_eq_true.1 (hall (rendition s) (by cases s <;> simp [rendition]))

theorem shows_tallyLine (count : Nat) (t : Tally) : Shows (tallyLine count t).toList := by
  have hwords := @shows_words
    [programName, ": ", " checks, ", " passed, ", " failed, ", " errored, ", " skipped\n"] (by decide +kernel)
  simp only [List.forall_mem_cons] at hwords
  obtain ⟨hname, hcolon, hchecks, hpassed, hfailed, herrored, hskipped, _⟩ := hwords
  show Shows (programName ++ (": " ++ toString count ++ " checks, " ++ toString t.passed ++ " passed, " ++
    toString t.failed ++ " failed, " ++ toString t.errored ++ " errored, " ++ toString t.skipped ++
    " skipped\n")).toList
  simp only [String.toList_append, shows_append_iff, shows_toString, hname, hcolon, hchecks, hpassed, hfailed, herrored,
    hskipped, and_self]

/-- A character behind the label shows, or the check brings it. -/
theorem isShown_or_mem_spoken {o : Outcome} {c : Char} (hc : c ∈ (afterLabel o).toList) :
    isShown c = true ∨ c ∈ spoken o := by
  have hwords := @shows_words [" ", " (", "ms)\n", "    ", "\n"] (by decide +kernel)
  simp only [List.forall_mem_cons] at hwords
  obtain ⟨hblank, hopen, hclose, hindent, hend, _⟩ := hwords
  rw [spoken, List.mem_append]
  rw [afterLabel, String.toList_append, String.toList_append, String.toList_append, List.mem_append, List.mem_append,
    List.mem_append] at hc
  rcases hc with ((hc | hc) | hc) | hc
  · exact .inl (hblank c hc)
  · exact .inr (.inl hc)
  · have hduration : Shows (" (" ++ toString o.duration.toNat ++ "ms)\n").toList := by
      simp only [String.toList_append, shows_append_iff, shows_toString, hopen, hclose, and_self]
    exact .inl (hduration c hc)
  · cases hm : o.status.message with
    | none =>
      rw [hm] at hc
      cases hc
    | some message =>
      simp only [hm, String.toList_append, List.mem_append] at hc
      rcases hc with (hc | hc) | hc
      · exact .inl (hindent c hc)
      · exact .inr (.inr hc)
      · exact .inl (hend c hc)

theorem mem_of_mem_spoken {o : Outcome} {c : Char} (hc : c ∈ spoken o) : c ∈ (afterLabel o).toList := by
  simp only [afterLabel, String.toList_append, List.mem_append]
  rcases List.mem_append.1 hc with hc | hc
  · exact .inl (.inl (.inr hc))
  · right
    cases hm : o.status.message with
    | none =>
      rw [hm] at hc
      cases hc
    | some message =>
      rw [hm] at hc
      simp only [String.toList_append, List.mem_append]
      exact .inl (.inr hc)

/-! ## The report on a terminal -/

/-- **A label in its colour** prints the label. -/
theorem prints_shownLabel (coloured : Bool) (s : Status) :
    Prints .ground ((shownLabel coloured s).toList.flatMap String.utf8EncodeChar) .ground (label s).toList := by
  have hlabel : Prints .ground ((label s).toList.flatMap String.utf8EncodeChar) .ground (label s).toList := by
    have hrun := prints_chars (shows_label s).not_mem
    rwa [List.filter_eq_self.2 (shows_label s)] at hrun
  cases coloured with
  | false => exact hlabel
  | true =>
    have hon : Prints .ground (('\x1b' :: '[' :: (rendition s).toList ++ ['m']).flatMap String.utf8EncodeChar) .ground
        [] := prints_rendition (isParameter_of_mem_rendition s)
    have hoff : Prints .ground (('\x1b' :: '[' :: ['0'] ++ ['m']).flatMap String.utf8EncodeChar) .ground [] :=
      prints_rendition (List.all_eq_true.1 rfl)
    have htext : (shownLabel true s).toList = ('\x1b' :: '[' :: (rendition s).toList ++ ['m']) ++ (label s).toList ++
        ('\x1b' :: '[' :: ['0'] ++ ['m']) := by
      simp [shownLabel]
    have hrun := (hon.append hlabel).append hoff
    rwa [List.nil_append, List.append_nil, ← List.flatMap_append, ← List.flatMap_append, ← htext] at hrun

theorem prints_outcomeLines (coloured : Bool) {o : Outcome} (h : '\x1b' ∉ spoken o) :
    Prints .ground ((outcomeLines coloured o).toList.flatMap String.utf8EncodeChar) .ground
      ((outcomeLines false o).toList.filter isShown) := by
  have hrest : '\x1b' ∉ (afterLabel o).toList := fun hc => (isShown_or_mem_spoken hc).elim (fun h => by cases h) h
  have hlabel : (shownLabel false o.status).toList.filter isShown = (label o.status).toList :=
    List.filter_eq_self.2 (shows_label o.status)
  rw [outcomeLines_eq, outcomeLines_eq, String.toList_append, String.toList_append, List.flatMap_append,
    List.filter_append, hlabel]
  exact (prints_shownLabel coloured o.status).append (prints_chars hrest)

/-- **A report without `ESC`** prints its characters that show, coloured or not. -/
theorem prints_write (coloured : Bool) {outcomes : List Outcome} (h : ∀ o ∈ outcomes, '\x1b' ∉ spoken o) :
    Prints .ground ((write coloured outcomes).toList.flatMap String.utf8EncodeChar) .ground
      ((write false outcomes).toList.filter isShown) := by
  have htally : Prints .ground
      ((tallyLine outcomes.length (.ofOutcomes outcomes)).toList.flatMap String.utf8EncodeChar) .ground
      ((tallyLine outcomes.length (.ofOutcomes outcomes)).toList.filter isShown) :=
    prints_chars (shows_tallyLine _ _).not_mem
  rw [write, write, String.toList_append, String.toList_append, List.flatMap_append, List.filter_append]
  refine Prints.append ?_ htally
  clear htally
  induction outcomes with
  | nil => exact .nil _
  | cons o rest ih =>
    obtain ⟨ho, hrest⟩ := List.forall_mem_cons.1 h
    rw [List.map_cons, List.map_cons, String.join_cons, String.join_cons, String.toList_append, String.toList_append,
      List.flatMap_append, List.filter_append]
    exact (prints_outcomeLines coloured ho).append (ih hrest)

/-- A report shows in full just when what the checks bring does. -/
theorem shows_write_iff (outcomes : List Outcome) :
    Shows (write false outcomes).toList ↔ ∀ o ∈ outcomes, Shows (spoken o) := by
  have htally := shows_tallyLine outcomes.length (.ofOutcomes outcomes)
  have hlines (o : Outcome) : Shows (outcomeLines false o).toList ↔ Shows (spoken o) := by
    rw [outcomeLines_eq, String.toList_append]
    refine ⟨fun h c hc => h c (List.mem_append_right _ (mem_of_mem_spoken hc)), fun h => ?_⟩
    exact shows_append_iff.2 ⟨shows_label o.status, fun c hc => (isShown_or_mem_spoken hc).elim id (h c)⟩
  rw [write, String.toList_append, shows_append_iff, shows_join_iff, List.forall_mem_map]
  exact ⟨fun h o ho => (hlines o).1 (h.1 o ho), fun h => ⟨fun o ho => (hlines o).2 (h o ho), htally⟩⟩

/-! ## Written and shown -/

theorem text_empty_write (text : String) : (Sink.empty.write text.toUTF8).text = .ok text := by
  show (Utf8.decode (.empty ++ text.toUTF8)).mapError SinkFault.notText = _
  rw [ByteArray.empty_append, Utf8.decode_toUTF8]
  rfl

theorem stripped_empty_write (text : String) :
    (Sink.empty.write text.toUTF8).stripped =
      .ok (String.ofList (strip (text.toList.flatMap String.utf8EncodeChar))) := by
  show Except.ok (String.ofList (strip (ByteArray.empty ++ text.toUTF8).toList)) = _
  rw [ByteArray.empty_append, Utf8.toList_toUTF8]

/-- What is shown of a coloured report is the plain one only if all of that shows. -/
theorem shows_of_stripped_eq {outcomes : List Outcome}
    (h : (Sink.empty.write (write true outcomes).toUTF8).stripped =
      (Sink.empty.write (write false outcomes).toUTF8).text) : ∀ o ∈ outcomes, Shows (spoken o) := by
  rw [stripped_empty_write, text_empty_write, Except.ok.injEq] at h
  refine (shows_write_iff outcomes).1 fun c hc => ?_
  rw [← h, String.toList_ofList] at hc
  exact isShown_of_mem_strip _ c hc

/-- **The colours of a report, and what goes with them.** What is shown of a coloured report is the plain report just
when every character of the names and the messages of its checks shows: no tab, no carriage return, no other control
character than the line feed. As long as none of them is `ESC`, what is shown is the plain report without its control
characters. -/
theorem stripped_write (outcomes : List Outcome) :
    (Sink.empty.write (write false outcomes).toUTF8).text = .ok (write false outcomes) ∧
      ((Sink.empty.write (write true outcomes).toUTF8).stripped =
          (Sink.empty.write (write false outcomes).toUTF8).text ↔
        ∀ o ∈ outcomes, ∀ c ∈ spoken o, isShown c = true) ∧
      ((∀ o ∈ outcomes, '\x1b' ∉ spoken o) →
        (Sink.empty.write (write true outcomes).toUTF8).stripped =
          .ok (String.ofList ((write false outcomes).toList.filter isShown))) := by
  have hfiltered (h : ∀ o ∈ outcomes, '\x1b' ∉ spoken o) :
      (Sink.empty.write (write true outcomes).toUTF8).stripped =
        .ok (String.ofList ((write false outcomes).toList.filter isShown)) := by
    rw [stripped_empty_write, (prints_write true h).strip]
  refine ⟨text_empty_write _, ⟨shows_of_stripped_eq, fun h => ?_⟩, hfiltered⟩
  have hesc : ∀ o ∈ outcomes, '\x1b' ∉ spoken o := fun o ho => Shows.not_mem (h o ho)
  rw [hfiltered hesc, List.filter_eq_self.2 ((shows_write_iff outcomes).2 h), String.ofList_toList, text_empty_write]

/-- A check that misses a file. -/
def missing (path : String) : Outcome := ⟨"reports_exist", .fail (.missingFile path), 1⟩

/-- A name without control characters is shown in full, of a name with a tab the tab is lost. -/
theorem stripped_write_missing :
    (Sink.empty.write (write true [missing "ab.xml"]).toUTF8).stripped =
        (Sink.empty.write (write false [missing "ab.xml"]).toUTF8).text ∧
      (Sink.empty.write (write true [missing "a\tb.xml"]).toUTF8).stripped =
        .ok ("FAIL reports_exist (1ms)\n" ++ "    Expected to have file at: ab.xml\n" ++
          "run-results-verifier: 1 checks, 0 passed, 1 failed, 0 errored, 0 skipped\n") := by
  have hplain : ∀ o ∈ [missing "ab.xml"], ∀ c ∈ spoken o, isShown c = true :=
    List.forall_mem_singleton.2 (List.all_eq_true.1 (by decide +kernel))
  have hesc : ∀ o ∈ [missing "a\tb.xml"], '\x1b' ∉ spoken o := List.forall_mem_singleton.2 (by decide +kernel)
  refine ⟨(stripped_write _).2.1.2 hplain, ?_⟩
  rw [(stripped_write _).2.2 hesc]
  exact congrArg Except.ok (by decide +kernel)

/-- So more than the colours can be lost. -/
theorem not_stripped_write_eq : ¬∀ outcomes : List Outcome,
    (Sink.empty.write (write true outcomes).toUTF8).stripped =
      (Sink.empty.write (write false outcomes).toUTF8).text := fun h => by
  have hshows := shows_of_stripped_eq (h [missing "a\tb.xml"]) _ (List.mem_singleton_self _)
  exact absurd (hshows '\t' (by decide +kernel)) (by decide)

end RunAudit.Report.Console
