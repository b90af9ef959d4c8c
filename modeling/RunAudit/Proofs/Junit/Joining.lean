import Mathlib.Algebra.GroupWithZero.Nat
import RunAudit.Proofs.Junit.Reading
import RunAudit.Proofs.Xml.Structure

/-!
# Reports that are joined

Texts that end in `>` are read one after another: the tags of the first stand in front of those of what follows it
(`scan_append`). The tags of a document are read in the same way inside of an element, and what was its root is one of
the element's children then (`parse_join`). So the reader finds in an element around some reports the test cases of
each, in order (`readCases_join`).
-/

namespace RunAudit.Xml

/-! ## Tags of texts that follow one another -/

/-- **The tags of a text** that is finished stand in front of those of what follows it. -/
theorem scan_append (q : List Char) {s : List Char} (hs : Finished s) (h : (scan s).fault = none) :
    scan (s ++ q) = (scan q).after (scan s).items := by
  induction hn : s.length using Nat.strongRecOn generalizing s with
  | _ n ih =>
    rw [scan_eq s] at h ⊢
    rw [scan_eq (s ++ q)]
    have hg := grows_front q s
    cases hf : front s with
    | done =>
      rw [hf, Front.next_done] at hg
      generalize (front (s ++ q)).next = n' at hg
      cases hg with
      | text => exact (scan_eq q).symm
      | bracket hu => exact absurd hs hu
    | fault f => simp [hf, Next.scan] at h
    | ignored rest shorter =>
      simp only [hf, Front.next_ignored, Next.scan] at h hg ⊢
      generalize (front (s ++ q)).next = n' at hg
      cases hg with
      | ignored hr => exact ih rest.length (hn ▸ shorter) (hs.suffix hr) h rfl
      | instruction hu => exact absurd hs hu
    | item i rest shorter =>
      simp only [hf, Front.next_item, Next.scan, Scan.after] at h hg ⊢
      generalize (front (s ++ q)).next = n' at hg
      cases hg with
      | item _ hr =>
        have hscan := ih rest.length (hn ▸ shorter) (hs.suffix hr) h rfl
        simp only [hscan, Scan.after, List.append_assoc]
      | closing hu => exact absurd hs hu

/-- Tags are read in the same way when more elements are open around them. -/
theorem Reads.inside {o o' : List (List Char)} {items : List Item} {es : List Event} (h : Reads o items es o')
    (outer : List (List Char)) : Reads (o ++ outer) items es (o' ++ outer) := by
  induction h with
  | nil o => exact .nil _
  | @cons o o₁ o' i e items es hr _ ih =>
    refine .cons ?_ ih
    cases i with
    | opening content =>
      cases hr
      rfl
    | empty content =>
      cases hr
      rfl
    | closing name =>
      cases o with
      | nil => simp [readItem] at hr
      | cons innermost o =>
        simp only [readItem, List.cons_append] at hr ⊢
        split at hr
        · rename_i hname
          cases hr
          rw [if_pos hname]
        · cases hr

/-- The tags of a document spell its tree and leave nothing open. -/
theorem exists_reads_of_parse {s : List Char} {d : Document} (h : Document.parse s = .ok d) :
    ∃ es t, (scan s).fault = none ∧ Reads [] (scan s).items es [] ∧ Spells es [t] ∧ d = .ofTree t := by
  obtain ⟨es, o, t, hf, hr, hs, ht⟩ := parse_eq_ok_iff_spells.1 h
  obtain ⟨_, rfl⟩ := hs.balanced (openAfter_of_reads hr)
  exact ⟨es, t, hf, hr, hs, ht⟩

/-- **The tags of documents that follow one another** are read, whatever is open before them, as events that spell
their trees. -/
theorem exists_reads_of_documents {texts : List (List Char)} {documents : List Document}
    (h : List.Forall₂ (fun s d => Document.parse s = .ok d) texts documents) (hf : ∀ s ∈ texts, Finished s) :
    ∃ items es trees, documents = trees.map .ofTree ∧
      (∀ rest, scan (texts.flatten ++ rest) = (scan rest).after items) ∧
      (∀ o, Reads o items es o) ∧ Spells es trees := by
  induction h with
  | nil => exact ⟨[], [], [], rfl, fun rest => by simp, .nil, .nil⟩
  | @cons s d texts documents hd _ ih =>
    obtain ⟨es, t, hfault, hr, hs, rfl⟩ := exists_reads_of_parse hd
    obtain ⟨items, es', trees, rfl, hscan, hreads, hspells⟩ := ih fun s' hs' => hf s' (List.mem_cons_of_mem _ hs')
    refine ⟨(scan s).items ++ items, es ++ es', t :: trees, rfl, fun rest => ?_, fun o => ?_, hs.append hspells⟩
    · rw [List.flatten_cons, List.append_assoc, scan_append _ (hf s List.mem_cons_self) hfault, hscan,
        Scan.after_after]
    · exact (hr.inside o).append (hreads o)

/-- **Documents inside of an element** without attributes are the children of that element. -/
theorem parse_join {tag : String} {texts : List (List Char)} {documents : List Document} (ht : isName tag = true)
    (h : List.Forall₂ (fun s d => Document.parse s = .ok d) texts documents) (hf : ∀ s ∈ texts, Finished s) :
    ∃ trees, documents = trees.map .ofTree ∧
      Document.parse ('<' :: tag.toList ++ '>' :: (texts.flatten ++ '<' :: '/' :: (tag.toList ++ ['>']))) =
        .ok (.ofTree ⟨tag, [], trees⟩) := by
  obtain ⟨items, es, trees, hdocuments, hscan, hreads, hspells⟩ := exists_reads_of_documents h hf
  refine ⟨trees, hdocuments, ?_⟩
  have hopen := (next_markup_written ht .nil blank_nil (texts.flatten ++ '<' :: '/' :: (tag.toList ++ ['>']))).1
  have hclose := scan_closing ht blank_nil []
  simp only [List.nil_append, List.append_nil] at hopen hclose
  have hall : scan ('<' :: tag.toList ++ '>' :: (texts.flatten ++ '<' :: '/' :: (tag.toList ++ ['>']))) =
      ⟨.opening tag.toList :: (items ++ [.closing tag.toList]), none⟩ := by
    rw [List.cons_append, scan_eq, next_front_lt, hopen, Next.scan, hscan, hclose, scan_nil]
    simp [Scan.after]
  have hstart : readItem [] (.opening tag.toList) = .ok ([tag.toList], .start tag.toList) := by
    have := nameOf_written ht .nil blank_nil
    simp only [List.append_nil] at this
    rw [readItem, this]
  have hstop := readItem_closing_name ht blank_nil []
  have helement := element_written ht .nil blank_nil List.nodup_nil
  simp only [List.append_nil] at hstop helement
  refine parse_eq_ok_iff_spells.2
    ⟨.start tag.toList :: (es ++ [.stop tag.toList]), [], ⟨tag, [], trees⟩, ?_, ?_, ?_, rfl⟩
  · rw [hall]
  · rw [hall]
    exact .cons hstart ((hreads _).append (.cons hstop (.nil _)))
  · exact .nested helement hspells .nil

end RunAudit.Xml

namespace RunAudit.Junit

open RunAudit.Xml

/-! ## Test cases -/

/-- The test cases of some trees, one tree after another. -/
theorem casesOf_children (trees : List ElementTree) :
    casesOf ⟨"testsuites", [], trees⟩ =
      ⟨trees.flatMap fun t => (casesOf t).records, (trees.map fun t => (casesOf t).skipped).sum⟩ := by
  have hroot : isCaseTree ⟨"testsuites", [], trees⟩ = false := rfl
  have hall : ∀ trees : List ElementTree, (ElementTree.preorderAll trees).filter isCaseTree =
      trees.flatMap fun t => t.preorder.filter isCaseTree := by
    intro trees
    induction trees with
    | nil => rfl
    | cons t trees ih => rw [ElementTree.preorderAll, List.filter_append, ih, List.flatMap_cons]
  simp only [casesOf, liveCases, ElementTree.preorder, List.filter_cons, hroot, Bool.false_eq_true, if_false, hall,
    List.filter_flatMap, List.map_flatMap, List.countP_flatMap, Function.comp_def]

/-- Reports with test cases are documents, in which these are found. -/
theorem exists_documents {reports : List String} {cases : List Cases}
    (h : List.Forall₂ (fun report found => readCases report = .ok found) reports cases) :
    ∃ documents, List.Forall₂ (fun s d => Document.parse s = .ok d) (reports.map String.toList) documents ∧
      cases = documents.map .ofDocument := by
  induction h with
  | nil => exact ⟨[], .nil, rfl⟩
  | @cons report found reports cases hr _ ih =>
    obtain ⟨documents, hd, rfl⟩ := ih
    unfold readCases at hr
    cases hp : Document.parse report.toList with
    | error f => simp [hp] at hr
    | ok d =>
      rw [hp] at hr
      cases hr
      exact ⟨d :: documents, .cons hp hd, rfl⟩

/-- **Reports inside of one element** have the test cases of each report, in order: their records follow one another,
and the numbers of skipped cases add up. -/
theorem readCases_join {reports : List String} {cases : List Cases}
    (h : List.Forall₂ (fun report found => readCases report = .ok found) reports cases)
    (hend : ∀ report ∈ reports, report.toList.getLast? = some '>') :
    readCases ("<testsuites>" ++ String.join reports ++ "</testsuites>") =
      .ok ⟨cases.flatMap (·.records), (cases.map (·.skipped)).sum⟩ := by
  have hfinished : ∀ s ∈ reports.map String.toList, Finished s := by
    intro s hs c hc
    obtain ⟨report, hr, rfl⟩ := List.mem_map.1 hs
    rw [hend report hr] at hc
    exact (Option.some.inj hc).symm
  obtain ⟨documents, hd, rfl⟩ := exists_documents h
  have htag : isName "testsuites" = true := by decide +kernel
  obtain ⟨trees, rfl, hparse⟩ := parse_join htag hd hfinished
  have htext : ("<testsuites>" ++ String.join reports ++ "</testsuites>").toList =
      '<' :: "testsuites".toList ++ '>' ::
        ((reports.map String.toList).flatten ++ '<' :: '/' :: ("testsuites".toList ++ ['>'])) := by
    simp [List.flatMap_def]
  rw [readCases, htext, hparse]
  simp only [ofDocument_ofTree, casesOf_children, List.flatMap_map, List.map_map, Function.comp_def]

/-- A report with a declaration and a document type, and one that is a skipped case before a comment. -/
theorem readCases_join_two :
    readCases ("<testsuites>" ++ String.join
      ["<?xml version='1.0'?><!DOCTYPE s>\n<s><testcase n='1'/><testcase n='2'/></s>",
        "\ufeff<testcase><skipped/></testcase><!-- > -->"] ++ "</testsuites>") =
      .ok ⟨[⟨[("n", "1")], []⟩, ⟨[("n", "2")], []⟩], 1⟩ := by
  have hfirst : readCases "<?xml version='1.0'?><!DOCTYPE s>\n<s><testcase n='1'/><testcase n='2'/></s>" =
      .ok ⟨[⟨[("n", "1")], []⟩, ⟨[("n", "2")], []⟩], 0⟩ := by decide +kernel
  have hsecond : readCases "\ufeff<testcase><skipped/></testcase><!-- > -->" = .ok ⟨[], 1⟩ := by decide +kernel
  exact readCases_join (.cons hfirst (.cons hsecond .nil)) (by decide +kernel)

end RunAudit.Junit
