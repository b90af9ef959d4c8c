import RunAudit.Event.Summary
import RunAudit.Proofs.Check.Differences
import RunAudit.Proofs.Event.Roundtrip
import RunAudit.Proofs.Json.Roundtrip

/-!
# Summaries lose nothing

The summary of a log accounts for every event in it (`Summarizes`): each is counted once, or stands by its type among
the unknown ones; each test and each run is named as often as it is listed, in ascending order, and the runs are divided
by whether they succeeded. No unknown event can be left out for want of a type, as every event that is read names one
(`map_some_unknownTypes`). The summary of one log behind another is made of the two summaries alone (`Summary.merge`,
`summary_lossless`).
-/

namespace RunAudit

/-- **Names in ascending order**, each as often as it is there. -/
structure Sorts (sorted names : List String) : Prop where
  ascending : sorted.Pairwise (· ≤ ·)
  perm : sorted.Perm names

theorem sorts_sortedNames (names : List String) : Sorts (sortedNames names) names :=
  ⟨pairwise_sortedNames names, sortedNames_perm names⟩

namespace Event

/-! ## What a log lists -/

/-- The testing results that the values of a log hold which are to carry one. -/
def resultsOf (values : List Value) : List TestingResult := (values.filter (hasType resultType)).filterMap resultIn?

/-- The tests that a log lists. -/
def entriesOf (values : List Value) : List TestEntry := (resultsOf values).flatMap (·.bucket.testEntries)

/-- The runs that a log lists. -/
def runsOf (values : List Value) : List TestRun := (resultsOf values).flatMap (·.unfilteredTestRuns)

/-- **What a summary is to tell of a log**: all of its events by kind, and the names of all of its tests and runs. -/
structure Summarizes (values : List Value) (s : Summary) : Prop where
  results : s.testingResultEvents = values.countP (hasType resultType)
  tearDowns : s.tearDownEvents = values.countP (hasType tearDownType)
  unknown : s.unknownEvents.map some = (values.filter hasOtherType).map typeNamed?
  others : ∀ t ∈ s.unknownEvents, t ≠ resultType ∧ t ≠ tearDownType
  total : s.testingResultEvents + s.tearDownEvents + s.unknownEvents.length = values.length
  tests : Sorts s.testEntries ((entriesOf values).map (·.methodName))
  passing : Sorts s.passingRuns (((runsOf values).filter (·.succeeded)).map (·.testEntry.methodName))
  failing : Sorts s.failingRuns (((runsOf values).filter (!·.succeeded)).map (·.testEntry.methodName))
  runs : s.passingRuns.length + s.failingRuns.length = (runsOf values).length

/-- The testing results of buckets are those of the log. -/
theorem Partitions.results_eq {values : List Value} {b : Buckets} (h : Partitions values b) :
    b.results = resultsOf values := by
  have hid {α : Type} (os : List (Option α)) (as : List α) (h : as.map some = os) : as = os.filterMap id := by
    rw [← h, List.filterMap_map, Function.id_comp, List.filterMap_some]
  rw [hid _ _ h.results, List.filterMap_map, Function.id_comp, resultsOf]

/-- **Every unknown event is told by its type.** -/
theorem map_some_unknownTypes {b : Buckets} (h : b.Typed) : b.unknownTypes.map some = b.unknown.map typeOf? := by
  rw [Buckets.unknownTypes, List.map_filterMap_some_eq_filter_map_isSome, List.filter_eq_self]
  intro t ht
  obtain ⟨fields, hf, rfl⟩ := List.mem_map.1 ht
  obtain ⟨t, ht, _⟩ := h.unknown fields hf
  rw [ht]
  rfl

/-- The runs that a log lists are those of its buckets. -/
theorem Partitions.runs_eq {values : List Value} {b : Buckets} (h : Partitions values b) : b.runs = runsOf values := by
  rw [Buckets.runs, h.results_eq, runsOf]

/-- Runs that failed are those that did not succeed. -/
theorem runMethods_false (b : Buckets) :
    b.runMethods false = (b.runs.filter (!·.succeeded)).map (·.testEntry.methodName) := by
  simp [Buckets.runMethods]

theorem runMethods_true (b : Buckets) :
    b.runMethods true = (b.runs.filter (·.succeeded)).map (·.testEntry.methodName) := by
  simp [Buckets.runMethods]

/-- Each run succeeded or failed. -/
theorem length_runMethods (b : Buckets) : (b.runMethods true).length + (b.runMethods false).length = b.runs.length := by
  rw [runMethods_true, runMethods_false, List.length_map, List.length_map, ← List.length_eq_length_filter_add]

/-- **The summary of buckets** tells all of the log that was read as these. -/
theorem summarizes_ofBuckets {values : List Value} {b : Buckets} (h : Partitions values b) (ht : b.Typed) :
    Summarizes values (.ofBuckets b) where
  results := by
    show b.results.length = _
    have := congrArg List.length h.results
    rwa [List.length_map, List.length_map, ← List.countP_eq_length_filter] at this
  tearDowns := by
    show b.tearDowns.length = _
    have := congrArg List.length h.tearDowns
    rwa [List.length_map, ← List.countP_eq_length_filter] at this
  unknown := by
    show b.unknownTypes.map some = _
    rw [map_some_unknownTypes ht, ← h.unknown, List.map_map]
    rfl
  others := by
    intro t hmem
    obtain ⟨fields, hf, htype⟩ := List.mem_filterMap.1 hmem
    obtain ⟨t', ht', hr, hd⟩ := ht.unknown fields hf
    obtain rfl := Option.some.inj (ht'.symm.trans htype)
    exact ⟨hr, hd⟩
  total := by
    show b.results.length + b.tearDowns.length + b.unknownTypes.length = _
    have := congrArg List.length (map_some_unknownTypes ht)
    rw [List.length_map, List.length_map] at this
    rw [this, h.length]
  tests := by
    show Sorts b.testEntryNames _
    rw [Buckets.testEntryNames_eq, Buckets.testMethods, Buckets.entries, h.results_eq]
    exact sorts_sortedNames _
  passing := by
    show Sorts (b.runNames true) _
    rw [Buckets.runNames_eq, runMethods_true, h.runs_eq]
    exact sorts_sortedNames _
  failing := by
    show Sorts (b.runNames false) _
    rw [Buckets.runNames_eq, runMethods_false, h.runs_eq]
    exact sorts_sortedNames _
  runs := by
    show (b.runNames true).length + (b.runNames false).length = _
    rw [Buckets.runNames_eq, Buckets.runNames_eq, (sortedNames_perm _).length_eq, (sortedNames_perm _).length_eq,
      length_runMethods, h.runs_eq]

/-! ## One log behind another -/

/-- **The summary of two logs**, from those of each: counts are added, unknown events stand behind one another, and
names are merged. -/
def Summary.merge (s s' : Summary) : Summary where
  testingResultEvents := s.testingResultEvents + s'.testingResultEvents
  tearDownEvents := s.tearDownEvents + s'.tearDownEvents
  unknownEvents := s.unknownEvents ++ s'.unknownEvents
  testEntries := mergeNames s.testEntries s'.testEntries
  passingRuns := mergeNames s.passingRuns s'.passingRuns
  failingRuns := mergeNames s.failingRuns s'.failingRuns

/-- The summary of the buckets of two logs. -/
theorem ofBuckets_append (b b' : Buckets) :
    Summary.ofBuckets (b.append b') = (Summary.ofBuckets b).merge (.ofBuckets b') := by
  have htests : (b.append b').testEntryNames = mergeNames b.testEntryNames b'.testEntryNames := by
    simp only [Buckets.testEntryNames, Buckets.append, List.flatMap_append, sortedNames_append]
  have hruns (succeeded : Bool) :
      (b.append b').runNames succeeded = mergeNames (b.runNames succeeded) (b'.runNames succeeded) := by
    simp only [Buckets.runNames, Buckets.append, List.flatMap_append, sortedNames_append]
  rw [Summary.ofBuckets, Summary.merge, htests, hruns, hruns]
  simp only [Summary.ofBuckets, Buckets.unknownTypes, Buckets.append, List.length_append, List.filterMap_append]

/-- A log behind another is read as the buckets of both. -/
theorem classify_append {values more : List Value} {b b' : Buckets} (hb : classify values = .ok b)
    (hb' : classify more = .ok b') : classify (values ++ more) = .ok (b.append b') := by
  obtain ⟨events, hevents, rfl⟩ := classify_eq_ok_iff.1 hb
  obtain ⟨events', hevents', rfl⟩ := classify_eq_ok_iff.1 hb'
  exact classify_eq_ok_iff.2 ⟨events ++ events', List.rel_append hevents hevents', Buckets.ofEvents_append _ _⟩

theorem readBuckets_eq_ok_iff {text : String} {b : Buckets} :
    readBuckets text = .ok b ↔ ∃ values, readLog text = .ok values ∧ classify values = .ok b := bind_eq_ok_iff

/-- The summary of values that are read as buckets tells all of them. -/
theorem summarizes_of_classify {values : List Value} {b : Buckets} (h : classify values = .ok b) :
    Summarizes values (.ofBuckets b) := by
  obtain ⟨events, hevents, rfl⟩ := classify_eq_ok_iff.1 h
  exact summarizes_ofBuckets (partitions_ofEvents hevents) (typed_of_classify h)

/-- **The summary of a log loses nothing**: it tells each event of the log, and the summary of the log with another one
behind it is made of the summaries of both. -/
theorem summary_lossless {text : String} {b : Buckets} (h : readBuckets text = .ok b) :
    ∃ values, readLog text = .ok values ∧ Summarizes values (.ofBuckets b) ∧
      ∀ {text' : String} {b' : Buckets}, readBuckets text' = .ok b' → ∃ more c, readLog text' = .ok more ∧
        classify (values ++ more) = .ok c ∧ Summary.ofBuckets c = (Summary.ofBuckets b).merge (.ofBuckets b') ∧
        ∀ joined, readLog joined = .ok (values ++ more) → readBuckets joined = .ok c := by
  obtain ⟨values, hvalues, hb⟩ := readBuckets_eq_ok_iff.1 h
  refine ⟨values, hvalues, summarizes_of_classify hb, fun {text' b'} h' => ?_⟩
  obtain ⟨more, hmore, hb'⟩ := readBuckets_eq_ok_iff.1 h'
  have hjoined := classify_append hb hb'
  exact ⟨more, b.append b', hmore, hjoined, ofBuckets_append b b', fun joined hj =>
    readBuckets_eq_ok_iff.2 ⟨_, hj, hjoined⟩⟩

/-! ## Printed logs -/

theorem TestEntry.readable_toValue (e : TestEntry) (depth : Nat) : Json.Readable (depth + 1) e.toValue := by
  obtain ⟨m, _ | c⟩ := e <;> simp [toValue, Json.Readable, Json.readable_string, Fields.keys]

theorem Bucket.readable_toValue (b : Bucket) (depth : Nat) : Json.Readable (depth + 3) b.toValue := by
  have hentries : Json.Readable (depth + 2) (.list (b.testEntries.map TestEntry.toValue)) :=
    List.forall_mem_map.2 fun e _ => e.readable_toValue depth
  exact ⟨by simp [Fields.keys], List.forall_mem_singleton.2 hentries⟩

theorem TestRun.readable_toValue (r : TestRun) (depth : Nat) : Json.Readable (depth + 2) r.toValue := by
  refine ⟨by simp [Fields.keys], ?_⟩
  simp only [List.forall_mem_cons]
  exact ⟨trivial, r.testEntry.readable_toValue depth, by simp⟩

/-- **An event that carries a testing result** can be read where it is printed. -/
theorem TestingResult.readable_toEvent (r : TestingResult) (depth : Nat) : Json.Readable (depth + 5) r.toEvent := by
  have hruns : Json.Readable (depth + 3) (.list (r.unfilteredTestRuns.map TestRun.toValue)) :=
    List.forall_mem_map.2 fun run _ => run.readable_toValue depth
  have hresult : Json.Readable (depth + 4) r.toValue := by
    refine ⟨by simp [Fields.keys], ?_⟩
    simp only [List.forall_mem_cons]
    exact ⟨r.bucket.readable_toValue depth, hruns, by simp⟩
  refine ⟨by simp [Fields.keys], ?_⟩
  simp only [List.forall_mem_cons]
  exact ⟨Json.readable_string _ _, hresult, by simp⟩

/-- **A log that is printed** is read as what it was printed from. -/
theorem readLog_compact {values : List Value} (h : Json.Readable Json.depthLimit (.list values)) :
    readLog (String.ofList (Json.compact (.list values))) = .ok values := by
  refine mapError_eq_ok_iff.2 (Json.readList_of_derives ?_ h)
  rw [String.toList_ofList]
  exact Json.derives_compact h

/-- A log with a test that ran twice, one with an unknown event and a tear down, and the first with the second behind
it. -/
theorem summary_lossless_joined :
    let run (b : Bool) : Value := .list [.bool b, .list [.string "a"]]
    let tests : Value := .list [.list [.list [.string "a"]]]
    let values : List Value := [.object [("eventType", .string "didObtainTestingResult"),
      ("testingResult", .list [tests, .list [run false, run true]])]]
    let more : List Value := [.object [("eventType", .string "b")], .object [("eventType", .string "tearDown")]]
    let log (values : List Value) : String := String.ofList (Json.compact (.list values))
    let b : Buckets := ⟨[⟨⟨[⟨"a", none⟩]⟩, [⟨false, ⟨"a", none⟩⟩, ⟨true, ⟨"a", none⟩⟩]⟩], [], []⟩
    let b' : Buckets := ⟨[], [[("eventType", .string "tearDown")]], [[("eventType", .string "b")]]⟩
    readBuckets (log values) = .ok b ∧ readBuckets (log more) = .ok b' ∧
      ∃ c, readBuckets (log (values ++ more)) = .ok c ∧
        Summary.ofBuckets c = (Summary.ofBuckets b).merge (.ofBuckets b') := by
  intro run tests values more log b b'
  have hvalues : Json.Readable Json.depthLimit (.list values) := by
    simp [Json.depthLimit, Json.Readable, values, tests, run, Fields.keys]
  have hmore : Json.Readable Json.depthLimit (.list more) := by
    simp [Json.depthLimit, Json.Readable, more, Fields.keys]
  have hjoined : Json.Readable Json.depthLimit (.list (values ++ more)) := List.forall_mem_append.2 ⟨hvalues, hmore⟩
  have hb : readBuckets (log values) = .ok b := readBuckets_eq_ok_iff.2 ⟨values, readLog_compact hvalues, rfl⟩
  have hb' : readBuckets (log more) = .ok b' := readBuckets_eq_ok_iff.2 ⟨more, readLog_compact hmore, rfl⟩
  obtain ⟨values', hvalues', _, hbehind⟩ := summary_lossless hb
  obtain ⟨more', c, hmore', _, hsummary, hread⟩ := hbehind hb'
  obtain rfl := Except.ok.inj ((readLog_compact hvalues).symm.trans hvalues')
  obtain rfl := Except.ok.inj ((readLog_compact hmore).symm.trans hmore')
  exact ⟨hb, hb', c, hread _ (readLog_compact hjoined), hsummary⟩

end Event

end RunAudit
