import NeighborSearch.Proofs.Graphs
import NeighborSearch.Proofs.SelfQueries

/-!
# Reported events

A fit and a query announce their success when every check has passed, but before the answer has been
put together. What comes after the announcement cannot fail any more, unless a point cannot be
measured or read, so the events tell how the operation came out, `events_mirror_outcomes`.
-/

namespace NeighborSearch

namespace Traced

variable {α β : Type}

/-! ## Events of traced computations -/

/-- Events are reported in the order of the steps, and those before a failure stay. -/
@[simp]
theorem events_bind (x : Traced α) (f : α → Traced β) :
    (x >>= f).events = x.events ++ match x.result with
      | .ok a => (f a).events
      | .error _ => [] := by
  change (Traced.bind x f).events = _
  unfold Traced.bind
  cases x.result with
  | ok a => rfl
  | error err => exact (List.append_nil _).symm

@[simp]
theorem events_liftM (x : Except Error α) : (liftM x : Traced α).events = [] := rfl

/-- The computation reports one event of level `DEBUG` if it succeeds and none if it is refused. An
access out of bounds is neither. -/
structure Announces (x : Traced α) (event : α → Event) : Prop where
  answered : ∀ a, x.result = .ok a → x.events = [event a] ∧ (event a).level = "DEBUG"
  refused : ∀ err, x.result = .error err → err ≠ .outOfBounds → x.events = []

section Announces

variable {event : β → Event}

theorem announces_error (err : Error) : (ofExcept (.error err) : Traced β).Announces event :=
  ⟨nofun, fun _ _ _ => rfl⟩

/-- A check reports nothing. -/
theorem announces_check {x : Except Error α} {f : α → Traced β}
    (h : ∀ a, x = .ok a → (f a).Announces event) :
    ((liftM x : Traced α) >>= f).Announces event := by
  cases x with
  | ok a => exact h a rfl
  | error err => exact announces_error err

/-- An announcement is right if what comes after it reports nothing more and cannot be refused. -/
theorem announces_emit {announced : Event} {x : Traced β} (hlevel : announced.level = "DEBUG")
    (hevents : x.events = []) (hok : ∀ b, x.result = .ok b → event b = announced)
    (herror : ∀ err, x.result = .error err → err = .outOfBounds) :
    (emit announced >>= fun _ => x).Announces event := by
  constructor
  · intro b hb
    rw [hok b (by simpa using hb)]
    exact ⟨by simp [emit, hevents], hlevel⟩
  · intro err herr hin
    exact absurd (herror err (by simpa using herr)) hin

/-- What was announced stands, even if the result is not handed out. -/
theorem Announces.forget {announced : Event} {x : Traced α}
    (h : x.Announces fun _ => announced) :
    Traced.Announces ⟨x.events, x.result.map fun _ => ()⟩ fun _ : Unit => announced := by
  obtain ⟨events, result⟩ := x
  cases result with
  | ok a => exact ⟨fun _ _ => h.answered a rfl, nofun⟩
  | error err =>
    refine ⟨nofun, fun err' herr hin => ?_⟩
    cases herr
    exact h.refused err rfl hin

end Announces

end Traced

namespace Estimator

variable {α : Type} [Element α]

/-! ## Fits and queries -/

theorem prepare_announces (e : Estimator) (x : Matrix α) (allowed : Bool) :
    (e.prepare x allowed).Announces
      fun _ => .fitted x.rows x.columns (elementType α) e.config.metric := by
  unfold prepare
  split_ifs with hempty
  · exact Traced.announces_error _
  · refine Traced.announces_check fun _ _ => Traced.announces_check fun _ _ =>
      Traced.announces_check fun data _ => ?_
    exact Traced.announces_emit rfl rfl (fun _ _ => rfl) nofun

/-- A fit announces what it has stored, and nothing if it fails. -/
theorem fit_announces (e : Estimator) (x : Matrix α) (allowed : Bool) :
    (e.fit x allowed).2.Announces
      fun _ => .fitted x.rows x.columns (elementType α) e.config.metric :=
  (e.prepare_announces x allowed).forget

theorem bounds_of_resolveNeighbors {e : Estimator} {n : Option Nat} {candidates k : Nat}
    (h : e.resolveNeighbors n candidates = .ok k) : 1 ≤ k ∧ k ≤ candidates := by
  rcases e.resolveNeighbors_cases n candidates with ⟨err, herr, -⟩ | ⟨hok, hbounds⟩
  · cases h.symm.trans herr
  · cases h.symm.trans hok
    exact hbounds

/-- An admissible number of neighbors leaves nothing to refuse: the answer has the shape that was
asked for, or a point could not be measured. -/
theorem collect_cases (metric : Metric) (reference queries : Matrix Float32) {k : Nat}
    {selfMatch : SelfMatch} (hpos : 1 ≤ k) (hk : k ≤ selfMatch.candidateCount reference.rows)
    (withDistances : Bool) :
    collect metric reference queries k selfMatch withDistances = .error .outOfBounds ∨
    ∃ found, collect metric reference queries k selfMatch withDistances = .ok found ∧
      found.shape = (queries.rows, k) := by
  cases hsearch : search? metric reference queries k selfMatch with
  | none => exact Or.inl (collect_eq_error hsearch withDistances)
  | some table =>
    have hlengths := (listing_of_search? hpos hk hsearch).length
    refine Or.inr ⟨_, collect_eq hsearch hlengths withDistances, ?_⟩
    rw [← (rows_of_search? hsearch).1]
    exact (Neighbors.shaped_ofTable hlengths withDistances).shape

/-- A query that has announced so many points and neighbors answers with as many. -/
theorem collect_announces (event : Nat → Nat → Event) {metric : Metric}
    {reference queries : Matrix Float32} {k : Nat} {selfMatch : SelfMatch} (hpos : 1 ≤ k)
    (hk : k ≤ selfMatch.candidateCount reference.rows) (withDistances : Bool)
    (hlevel : (event queries.rows k).level = "DEBUG") :
    (Traced.emit (event queries.rows k) >>= fun _ =>
        (liftM (collect metric reference queries k selfMatch withDistances)
          : Traced Neighbors)).Announces
      fun found => event found.shape.1 found.shape.2 := by
  refine Traced.announces_emit hlevel rfl ?_ ?_
  · intro found hfound
    rcases collect_cases metric reference queries hpos hk withDistances with hout | ⟨_, hok, hshape⟩
    · cases hout.symm.trans hfound
    · cases hok.symm.trans hfound
      rw [hshape]
  · intro err herr
    rcases collect_cases metric reference queries hpos hk withDistances with hout | ⟨_, hok, -⟩
    · cases hout.symm.trans herr
      rfl
    · cases hok.symm.trans herr

/-- A query announces the shape of its answer, and nothing if it fails. -/
theorem query_announces (e : Estimator) (x : Matrix α) (n : Option Nat) (withDistances : Bool) :
    (e.query x n withDistances).Announces
      fun found => .query found.shape.1 found.shape.2 withDistances := by
  unfold query
  refine Traced.announces_check fun stored _ => ?_
  split_ifs with hcolumns
  · exact Traced.announces_error _
  · refine Traced.announces_check fun k hk => Traced.announces_check fun queries _ => ?_
    obtain ⟨hpos, hle⟩ := bounds_of_resolveNeighbors hk
    have hcount : k ≤ SelfMatch.candidateCount .include stored.rows := hle
    exact collect_announces (.query · · withDistances) hpos hcount withDistances rfl

theorem queryFitted_announces (e : Estimator) (n : Option Nat) (selfMatch : SelfMatch)
    (withDistances : Bool) :
    (e.queryFitted n selfMatch withDistances).Announces
      fun found => .selfQuery found.shape.1 found.shape.2 selfMatch withDistances := by
  unfold queryFitted
  refine Traced.announces_check fun stored _ => Traced.announces_check fun k hk => ?_
  obtain ⟨hpos, hle⟩ := bounds_of_resolveNeighbors hk
  exact collect_announces (.selfQuery · · selfMatch withDistances) hpos hle withDistances rfl

end Estimator

/-! ## Graphs -/

/-- A graph is reported with its entries, its width and its mode. -/
theorem Neighbors.toGraph_events {found : Neighbors} {columns : Nat} {mode : GraphMode}
    {g : SparseMatrix} (hg : (found.toGraph columns mode).result = .ok g) :
    (found.toGraph columns mode).events
      = [.assembly g.entryCount found.shape.2 g.columns mode] := by
  unfold toGraph at hg ⊢
  cases hvalues : found.graphValues mode with
  | error err =>
    rw [hvalues] at hg
    cases hg
  | ok values =>
    rw [hvalues] at hg
    have hparts : SparseMatrix.ofUniformRows columns found.indices.columns found.indices.data values
        = .ok g := hg
    obtain ⟨-, rfl⟩ := (@SparseMatrix.ofParts_eq_ok_iff ⟨_, _, _, _, _⟩ .stops nofun g).mp hparts
    rfl

/-- Answers that come from one table can be laid out in every mode. -/
theorem OneTable.exists_graph {samples queries k : Nat} {selfMatch : SelfMatch}
    {answer : Bool → Except Error Neighbors} (h : OneTable samples queries k selfMatch answer)
    {mode : GraphMode} {found : Neighbors} (hfound : answer mode.needsDistances = .ok found) :
    found.shape = (queries, k) ∧ ∃ g, (found.toGraph samples mode).result = .ok g := by
  rcases h with ⟨err, herr⟩ | ⟨table, hlisting, rfl, htable⟩
  · cases (herr _).symm.trans hfound
  · cases (htable _).symm.trans hfound
    exact ⟨(Neighbors.shaped_ofTable hlisting.length _).shape, _, toGraph_ofTable hlisting mode⟩

/-- A graph reports what its query reports and then, at level `TRACE`, the entries and columns that
it has. If it is refused, nothing is reported. -/
structure GraphReports (query : Traced Neighbors) (graph : Traced SparseMatrix) (mode : GraphMode) :
    Prop where
  answered : ∀ g, graph.result = .ok g → ∃ found assembly, query.result = .ok found ∧
    assembly = .assembly g.entryCount found.shape.2 g.columns mode ∧ assembly.level = "TRACE" ∧
    graph.events = query.events ++ [assembly]
  refused : ∀ err, graph.result = .error err → err ≠ .outOfBounds → graph.events = []

/-- A graph reports its query and then itself. -/
theorem GraphReports.events {query : Traced Neighbors} {graph : Traced SparseMatrix}
    {mode : GraphMode} (h : GraphReports query graph mode) {event : Neighbors → Event}
    (hquery : query.Announces event) {g : SparseMatrix} (hg : graph.result = .ok g) :
    ∃ found, query.result = .ok found ∧
      graph.events = [event found, .assembly g.entryCount found.shape.2 g.columns mode] := by
  obtain ⟨found, _, hfound, rfl, -, hevents⟩ := h.answered g hg
  rw [(hquery.answered found hfound).1] at hevents
  exact ⟨found, hfound, hevents⟩

/-- An answer that has been announced can be laid out, so nothing is reported of a refused graph. -/
theorem graphReports {query : Traced Neighbors} {event : Neighbors → Event}
    (hquery : query.Announces event) {samples : Except Error Nat} {mode : GraphMode}
    (hlaid : ∀ columns, samples = .ok columns → ∀ found, query.result = .ok found →
      ∃ g, (found.toGraph columns mode).result = .ok g) :
    GraphReports query ((liftM samples : Traced Nat) >>= fun columns => query >>= fun found =>
      found.toGraph columns mode) mode := by
  cases hsamples : samples with
  | error err => exact ⟨nofun, fun _ _ _ => rfl⟩
  | ok columns =>
    simp only [hsamples] at hlaid
    constructor
    · intro g hg
      simp only [Traced.result_bind, Traced.result_liftM, ok_bind] at hg
      obtain ⟨found, hfound, hg⟩ := bind_eq_ok_iff.mp hg
      refine ⟨found, _, hfound, rfl, rfl, ?_⟩
      simp [hfound, Neighbors.toGraph_events hg]
    · intro err herr hin
      simp only [Traced.result_bind, Traced.result_liftM, ok_bind] at herr
      cases hfound : query.result with
      | ok found =>
        obtain ⟨g, hg⟩ := hlaid columns rfl found hfound
        rw [hfound, ok_bind, hg] at herr
        cases herr
      | error err' =>
        rw [hfound, error_bind] at herr
        cases herr
        simp [hfound, hquery.refused err hfound hin]

namespace Estimator

variable {α : Type} [Element α]

theorem exists_fitted_of_sampleCount {e : Estimator} {columns : Nat}
    (h : e.sampleCount = .ok columns) : ∃ s, e.fitted = some s ∧ s.data.rows = columns := by
  cases hs : e.fitted with
  | none => simp [sampleCount, fittedData, fittedSet, hs, Except.map] at h
  | some s => exact ⟨s, rfl, Except.ok.inj ((sampleCount_eq hs).symm.trans h)⟩

/-- A graph of given points reports as its query does. -/
theorem graph_reports (e : Estimator) (x : Matrix α) (n : Option Nat) (mode : GraphMode) :
    GraphReports (e.query x n mode.needsDistances) (e.index.graph x n mode) mode := by
  refine graphReports (e.query_announces x n mode.needsDistances) ?_
  intro columns hcolumns found hfound
  obtain ⟨s, hs, rfl⟩ := exists_fitted_of_sampleCount hcolumns
  exact ((oneTable_query hs x).exists_graph hfound).2

theorem graphFitted_reports (e : Estimator) (n : Option Nat) (mode : GraphMode)
    (selfMatch : SelfMatch) :
    GraphReports (e.queryFitted n selfMatch mode.needsDistances)
      (e.index.graphFitted n mode selfMatch) mode := by
  refine graphReports (e.queryFitted_announces n selfMatch mode.needsDistances) ?_
  intro columns hcolumns found hfound
  obtain ⟨s, hs, rfl⟩ := exists_fitted_of_sampleCount hcolumns
  exact ((oneTable_queryFitted hs selfMatch).exists_graph hfound).2

/-! ## The graph of a matrix -/

/-- What the neighbor graph of a matrix reports: the fit, the query and the graph if there is a
graph, only the fit if there are not enough points, and nothing if they cannot be stored. For a
well-formed matrix there are no other cases. -/
structure RunReports (x : Matrix α) (k : Nat) (mode : GraphMode) (includeSelf : Bool)
    (metric : Metric) : Prop where
  answered : ∀ g, (neighborGraph x k mode includeSelf metric).result = .ok g →
    (neighborGraph x k mode includeSelf metric).events =
      [.fitted x.rows x.columns (elementType α) metric,
        if includeSelf then .query x.rows k mode.needsDistances
        else .selfQuery x.rows k .include mode.needsDistances,
        .assembly g.entryCount k g.columns mode]
  unfit : ∀ err, ((fresh ⟨k, metric⟩).fit x true).2.result = .error err →
    (neighborGraph x k mode includeSelf metric).result = .error err ∧
      (neighborGraph x k mode includeSelf metric).events = []
  tooMany : ((fresh ⟨k, metric⟩).fit x true).2.result = .ok () → x.rows < k →
    (∃ param value constraint, (neighborGraph x k mode includeSelf metric).result
      = .error (.invalidHyperparameter param value constraint)) ∧
      (neighborGraph x k mode includeSelf metric).events
        = [.fitted x.rows x.columns (elementType α) metric]
  enough : ((fresh ⟨k, metric⟩).fit x true).2.result = .ok () → k ≤ x.rows → x.WellFormed →
    ∃ g, (neighborGraph x k mode includeSelf metric).result = .ok g

/-- The graph that a fitted estimator is asked for. -/
def selfGraph (e : Estimator) (x : Matrix α) (mode : GraphMode) (includeSelf : Bool) :
    Traced SparseMatrix :=
  if includeSelf then e.index.graph x none mode else e.index.graphFitted none mode .include

theorem neighborGraph_eq (x : Matrix α) (k : Nat) (mode : GraphMode) (includeSelf : Bool)
    (metric : Metric) :
    neighborGraph x k mode includeSelf metric = (((fresh ⟨k, metric⟩).fit x true).2 >>= fun _ =>
      ((fresh ⟨k, metric⟩).fit x true).1.selfGraph x mode includeSelf) := rfl

section SelfGraph

variable {e : Estimator} {x : Matrix α} {s : FittedSet} {mode : GraphMode} {includeSelf : Bool}

/-- With or without the point itself counted, the graph is the one of the stored points. -/
theorem selfGraph_result (hs : e.fitted = some s) (hdata : s.data = x.narrowed)
    (hx : x.Storable true) (mode : GraphMode) (includeSelf : Bool) :
    (e.selfGraph x mode includeSelf).result
      = (e.index.graphFitted none mode .include).result := by
  cases includeSelf with
  | false => rfl
  | true => exact graph_eq_graphFitted hs hdata hx none mode

/-- The two ways to the graph differ in the query that they report. -/
theorem selfGraph_events (hs : e.fitted = some s) (hdata : s.data = x.narrowed) {g : SparseMatrix}
    (hg : (e.selfGraph x mode includeSelf).result = .ok g) :
    (e.selfGraph x mode includeSelf).events =
      [if includeSelf then .query x.rows e.config.neighbors mode.needsDistances
        else .selfQuery x.rows e.config.neighbors .include mode.needsDistances,
        .assembly g.entryCount e.config.neighbors g.columns mode] := by
  have hrows : s.data.rows = x.rows := by
    rw [hdata]
    rfl
  cases includeSelf with
  | true =>
    obtain ⟨found, hfound, hevents⟩ :=
      (e.graph_reports x none mode).events (e.query_announces x none _) hg
    have hshape := ((oneTable_query hs x).exists_graph hfound).1
    rw [selfGraph, if_pos rfl, hevents, hshape]
    rfl
  | false =>
    obtain ⟨found, hfound, hevents⟩ :=
      (e.graphFitted_reports none mode .include).events (e.queryFitted_announces none .include _) hg
    have hshape := ((oneTable_queryFitted hs .include).exists_graph hfound).1
    rw [selfGraph, if_neg (by decide), hevents, hshape, hrows]
    rfl

/-- A refused graph reports nothing after the fit. -/
theorem selfGraph_refused (hs : e.fitted = some s) (hdata : s.data = x.narrowed)
    (hx : x.Storable true) {err : Error} (hin : err ≠ .outOfBounds)
    (herr : (e.index.graphFitted none mode .include).result = .error err) (includeSelf : Bool) :
    (e.selfGraph x mode includeSelf).result = .error err ∧
      (e.selfGraph x mode includeSelf).events = [] := by
  have hresult := (selfGraph_result hs hdata hx mode includeSelf).trans herr
  refine ⟨hresult, ?_⟩
  cases includeSelf with
  | true => exact (e.graph_reports x none mode).refused err hresult hin
  | false => exact (e.graphFitted_reports none mode .include).refused err hresult hin

theorem graphFitted_tooMany (hs : e.fitted = some s) (hpos : 1 ≤ e.config.neighbors)
    (hmany : s.data.rows < e.config.neighbors) (mode : GraphMode) :
    (e.index.graphFitted none mode .include).result = .error (Config.neighborsError
      e.config.neighbors ("<= " ++ Nat.repr s.data.rows ++ " available candidates")) := by
  have hcount : SelfMatch.candidateCount .include s.data.rows < e.config.neighbors := hmany
  have hrefused : e.resolveNeighbors none (SelfMatch.candidateCount .include s.data.rows) = _ :=
    resolveNeighbors_eq_error e rfl hpos hcount
  rw [graphFitted_result, sampleCount_eq hs, ok_bind, queryFitted_result hs, hrefused]
  rfl

theorem exists_graphFitted (he : e.Reachable) (hs : e.fitted = some s)
    (hmetric : e.config.metric.Measures s.data.columns) (hpos : 1 ≤ e.config.neighbors)
    (hle : e.config.neighbors ≤ s.data.rows) (mode : GraphMode) :
    ∃ g, (e.index.graphFitted none mode .include).result = .ok g := by
  have hcount : e.config.neighbors ≤ SelfMatch.candidateCount .include s.data.rows := hle
  obtain ⟨found, hfound, -⟩ :=
    queryFitted_answers (n := none) he hs hmetric rfl hpos hcount mode.needsDistances
  obtain ⟨-, g, hg⟩ := (oneTable_queryFitted hs .include).exists_graph hfound
  refine ⟨g, ?_⟩
  rw [graphFitted_result, sampleCount_eq hs, ok_bind, hfound, ok_bind, hg]

end SelfGraph

theorem runReports (x : Matrix α) (k : Nat) (mode : GraphMode) (includeSelf : Bool)
    (metric : Metric) : RunReports x k mode includeSelf metric := by
  have hannounces := (fresh ⟨k, metric⟩).fit_announces x true
  have hspec := (fresh ⟨k, metric⟩).fitSpec x true
  cases hfit : ((fresh ⟨k, metric⟩).fit x true).2.result with
  | error err =>
    have hin : err ≠ .outOfBounds := by
      rintro rfl
      exact hspec.inBounds hfit
    have hresult : (neighborGraph x k mode includeSelf metric).result = .error err := by
      rw [neighborGraph_eq, Traced.result_bind, hfit, error_bind]
    have hevents : (neighborGraph x k mode includeSelf metric).events = [] := by
      rw [neighborGraph_eq, Traced.events_bind, hannounces.refused err hfit hin, hfit]
      rfl
    refine ⟨fun g hg => ?_, fun err' herr => ?_, fun hok => ?_, fun hok => ?_⟩
    · cases hresult.symm.trans hg
    · cases hfit.symm.trans herr
      exact ⟨hresult, hevents⟩
    · cases hfit.symm.trans hok
    · cases hfit.symm.trans hok
  | ok u =>
    obtain ⟨hstorable, hstate⟩ := fit_eq_ok hfit
    have haccepts := hspec.ok_iff.mp hfit
    have hs := congrArg fitted hstate
    have hconfig := hspec.config
    have hresult : (neighborGraph x k mode includeSelf metric).result
        = (((fresh ⟨k, metric⟩).fit x true).1.selfGraph x mode includeSelf).result := by
      rw [neighborGraph_eq, Traced.result_bind, hfit, ok_bind]
    have hevents : (neighborGraph x k mode includeSelf metric).events
        = .fitted x.rows x.columns (elementType α) metric
          :: (((fresh ⟨k, metric⟩).fit x true).1.selfGraph x mode includeSelf).events := by
      rw [neighborGraph_eq, Traced.events_bind, (hannounces.answered u hfit).1, hfit]
      rfl
    refine ⟨fun g hg => ?_, fun err herr => ?_, fun _ hmany => ?_, fun _ hle hx => ?_⟩
    · rw [hevents, selfGraph_events hs rfl (hresult.symm.trans hg), hconfig]
      rfl
    · cases hfit.symm.trans herr
    · have hmanyError := graphFitted_tooMany hs haccepts.neighbors_pos hmany mode
      obtain ⟨hrefused, hnone⟩ :=
        selfGraph_refused hs rfl hstorable (by simp [Config.neighborsError]) hmanyError includeSelf
      rw [hresult, hevents, hrefused, hnone]
      exact ⟨⟨_, _, _, rfl⟩, rfl⟩
    · have he : (fresh ⟨k, metric⟩).Reachable := .withMetric (.withNeighbors .new k) metric
      have hmetric := (metricFits_fit (fresh ⟨k, metric⟩) hx true _ hs).measures
      obtain ⟨g, hg⟩ :=
        exists_graphFitted (he.fit x hx true) hs hmetric haccepts.neighbors_pos hle mode
      exact ⟨g, by rw [hresult, selfGraph_result hs rfl hstorable, hg]⟩

/-! ## Outcomes -/

/-- Events tell how an operation came out: a fit and a query report themselves once if they succeed,
a graph reports its query and what it was laid out to, and none of them reports anything if it is
refused. As long as the metric in force fits the points, nothing else can happen to them. -/
theorem events_mirror_outcomes {e : Estimator} (he : e.Reachable) (hfits : MetricFits e) :
    (∀ (α : Type) [Element α] (x : Matrix α),
      (∀ allowed, InBounds (e.fit x allowed).2.result ∧ (e.fit x allowed).2.Announces
        fun _ => .fitted x.rows x.columns (elementType α) e.config.metric) ∧
      (∀ n withDistances, (e.query x n withDistances).Announces
        fun found => .query found.shape.1 found.shape.2 withDistances) ∧
      (∀ n mode, GraphReports (e.query x n mode.needsDistances) (e.index.graph x n mode) mode) ∧
      ∀ k mode includeSelf metric, RunReports x k mode includeSelf metric) ∧
    (∀ n selfMatch,
      (∀ withDistances, (e.queryFitted n selfMatch withDistances).Announces
        fun found => .selfQuery found.shape.1 found.shape.2 selfMatch withDistances) ∧
      ∀ mode, GraphReports (e.queryFitted n selfMatch mode.needsDistances)
        (e.index.graphFitted n mode selfMatch) mode) ∧
    ∀ call : Call, call.WellFormed → InBounds (call.outcome e) := by
  refine ⟨fun α _ x => ⟨fun allowed => ?fit, ?query, ?graph, ?run⟩, fun n selfMatch => ⟨?_, ?_⟩, ?_⟩
  case fit => exact ⟨(e.fitSpec x allowed).inBounds, e.fit_announces x allowed⟩
  case query => exact e.query_announces x
  case graph => exact e.graph_reports x
  case run => exact runReports x
  · exact e.queryFitted_announces n selfMatch
  · exact fun mode => e.graphFitted_reports n mode selfMatch
  · exact fun call hcall => (Call.checked_of_metricFits he hfits hcall).inBounds

/-- Four overlapping points, asked for two neighbors, for too many, and by the run as a whole. -/
theorem ofOverlapping_announces :
    MetricFits ofOverlapping ∧
    (ofOverlapping.queryFitted (some 2) .exclude true).events = [.selfQuery 4 2 .exclude true] ∧
    (ofOverlapping.queryFitted (some 4) .exclude true).events = [] ∧
    (neighborGraph overlapping 5 .distance false (.minkowski 2)).events
      = [.fitted 4 1 .float32 (.minkowski 2)] := by
  have hfits : MetricFits ofOverlapping := by
    intro s hs
    cases fitted_ofOverlapping.symm.trans hs
    exact fits_ofOverlapping
  have h := events_mirror_outcomes reachable_ofOverlapping hfits
  have hcount : 2 ≤ SelfMatch.candidateCount .exclude 4 := by decide
  obtain ⟨found, hfound, hshaped, -⟩ :=
    queryFitted_answers (n := some 2) reachable_ofOverlapping fitted_ofOverlapping
      fits_ofOverlapping.measures rfl (by decide) hcount true
  refine ⟨hfits, ?_, ?_, ?_⟩
  · rw [(((h.2.1 (some 2) .exclude).1 true).answered found hfound).1, hshaped.shape]
    rfl
  · exact ((h.2.1 (some 4) .exclude).1 true).refused _ rfl (by simp [Config.neighborsError])
  · exact (((h.1 Float32 overlapping).2.2.2 5 .distance false (.minkowski 2)).tooMany rfl
      (by decide)).2

end Estimator

end NeighborSearch
