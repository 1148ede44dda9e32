import NeighborSearch.Proofs.Arithmetic
import NeighborSearch.Proofs.Checks
import NeighborSearch.Proofs.UniformRows

/-!
# Neighbor graphs

A neighbor graph is made from the answer to a query, and it succeeds exactly when the query does: an
answer has rows of equal length and indices in range, which is all that a sparse matrix asks for.
Row by row the graph has the neighbors that the answer lists. Their indices differ, so reading the
graph at a place, or its dense form, gives the one entry that is there.
-/

namespace NeighborSearch

/-! ## What an answer lists -/

/-- The rows of an answer about `samples` stored points. -/
structure Listing (samples k : Nat) (selfMatch : SelfMatch) (table : List (List Candidate)) :
    Prop where
  pos : 1 ≤ k
  length : ∀ row ∈ table, row.length = k
  distinct : ∀ row ∈ table, (row.map Candidate.index).Nodup
  inRange : ∀ row ∈ table, ∀ c ∈ row, c.index < samples
  others : selfMatch = .exclude → ∀ (i : Nat) (row : List Candidate), table[i]? = some row →
    ∀ c ∈ row, c.index ≠ i

theorem Candidate.distinct_of_sublist {cs row : List Candidate} (hdistinct : (cs.map index).Nodup)
    (hrow : row.Sublist (ranking cs)) : (row.map index).Nodup := by
  have hranking : ((ranking cs).map index).Nodup :=
    ((ranking_perm cs).map index).nodup_iff.mpr hdistinct
  exact hranking.sublist (hrow.map index)

/-- What a search finds is a listing: rows of distinct stored points, without the point itself if it
does not count. -/
theorem listing_of_search? {metric : Metric} {reference queries : Matrix Float32} {k : Nat}
    {selfMatch : SelfMatch} {table : List (List Candidate)} (hpos : 1 ≤ k)
    (hk : k ≤ selfMatch.candidateCount reference.rows)
    (h : search? metric reference queries k selfMatch = some table) :
    Listing reference.rows k selfMatch table := by
  obtain ⟨-, hrows⟩ := rows_of_search? h
  have hrow : ∀ row ∈ table, ∃ i cs, cs.map Candidate.index = List.range reference.rows ∧
      row = Candidate.chosen selfMatch k i cs := by
    intro row hrow
    obtain ⟨i, hi⟩ := List.mem_iff_getElem?.mp hrow
    exact ⟨i, hrows i row hi⟩
  refine ⟨hpos, ?_, ?_, ?_, ?_⟩
  · intro row hmem
    obtain ⟨i, cs, hcs, rfl⟩ := hrow row hmem
    have hlength : cs.length = reference.rows := by simpa using congrArg List.length hcs
    exact Estimator.length_chosen hpos (hlength ▸ hk) i
  · intro row hmem
    obtain ⟨i, cs, hcs, rfl⟩ := hrow row hmem
    exact Candidate.distinct_of_sublist (hcs ▸ List.nodup_range) (Candidate.chosen_sublist _ _ _ _)
  · intro row hmem c hc
    obtain ⟨i, cs, hcs, rfl⟩ := hrow row hmem
    have hc : c ∈ cs := Candidate.mem_ranking.mp ((Candidate.chosen_sublist _ _ _ _).subset hc)
    rw [← List.mem_range, ← hcs]
    exact List.mem_map_of_mem hc
  · rintro rfl i row hi c hc
    obtain ⟨cs, hcs, rfl⟩ := hrows i row hi
    have hcut := Candidate.distinct_of_sublist (hcs ▸ List.nodup_range) (List.take_sublist (k + 1) _)
    exact Candidate.index_ne_of_mem_leaveOut hcut hc

/-- Either every answer is the same refusal, or one table of candidates gives all answers. -/
def OneTable (samples queries k : Nat) (selfMatch : SelfMatch)
    (answer : Bool → Except Error Neighbors) : Prop :=
  (∃ err, ∀ withDistances, answer withDistances = .error err) ∨
  ∃ table, Listing samples k selfMatch table ∧ table.length = queries ∧
    ∀ withDistances, answer withDistances = .ok (.ofTable k withDistances table)

namespace Estimator

/-- With distances or without, a search answers from one table, or always with the same error. -/
theorem oneTable_collect (metric : Metric) (reference queries : Matrix Float32) {k : Nat}
    {selfMatch : SelfMatch} (hpos : 1 ≤ k) (hk : k ≤ selfMatch.candidateCount reference.rows) :
    OneTable reference.rows queries.rows k selfMatch
      (collect metric reference queries k selfMatch) := by
  cases hsearch : search? metric reference queries k selfMatch with
  | none => exact Or.inl ⟨_, collect_eq_error hsearch⟩
  | some table =>
    have hlisting := listing_of_search? hpos hk hsearch
    exact Or.inr ⟨table, hlisting, (rows_of_search? hsearch).1,
      collect_eq hsearch hlisting.length⟩

variable {e : Estimator} {s : FittedSet} {n : Option Nat}

/-- A query answers from one table, with distances or without. -/
theorem oneTable_query {α : Type} [Element α] (hs : e.fitted = some s) (x : Matrix α) :
    OneTable s.data.rows x.rows (n.getD e.config.neighbors) .include
      fun withDistances => (e.query x n withDistances).result := by
  rcases query_cases hs x n with ⟨err, -, hrefused⟩ | ⟨hpos, hle, -, hanswer⟩
  · exact Or.inl ⟨err, hrefused⟩
  · simp only [hanswer]
    exact oneTable_collect _ _ x.narrowed hpos hle

theorem oneTable_queryFitted (hs : e.fitted = some s) (selfMatch : SelfMatch) :
    OneTable s.data.rows s.data.rows (n.getD e.config.neighbors) selfMatch
      fun withDistances => (e.queryFitted n selfMatch withDistances).result := by
  rcases queryFitted_cases hs n selfMatch with ⟨err, -, hrefused⟩ | ⟨hpos, hle, hanswer⟩
  · exact Or.inl ⟨err, hrefused⟩
  · simp only [hanswer]
    exact oneTable_collect _ _ s.data hpos hle

end Estimator

/-! ## From answers to graphs -/

/-- What a graph stores for a neighbor at a reported distance. -/
def GraphMode.weight (mode : GraphMode) (d : Float32) : Float32 :=
  match mode with
  | .connectivity => 1
  | .distance => d

/-- The entry that stands for a neighbor. -/
def Candidate.entry (mode : GraphMode) (c : Candidate) : Nat × Float32 :=
  (c.index, mode.weight (narrow c.distance))

/-- The rows of the graph that shows these candidates. -/
def entryRows (mode : GraphMode) (table : List (List Candidate)) : List (List (Nat × Float32)) :=
  table.map (·.map (Candidate.entry mode))

section Graph

variable {samples k : Nat} {selfMatch : SelfMatch} {table : List (List Candidate)}

theorem map_fst_entryRows (mode : GraphMode) (table : List (List Candidate)) :
    (entryRows mode table).map (·.map Prod.fst) = table.map (·.map Candidate.index) := by
  simp only [entryRows, List.map_map, Function.comp_def]
  rfl

theorem map_snd_entryRows (mode : GraphMode) (table : List (List Candidate)) :
    (entryRows mode table).map (·.map Prod.snd)
      = table.map (·.map fun c => mode.weight (narrow c.distance)) := by
  simp only [entryRows, List.map_map, Function.comp_def]
  rfl

theorem Listing.length_of_mem_entryRows (h : Listing samples k selfMatch table) (mode : GraphMode) :
    ∀ row ∈ entryRows mode table, row.length = k :=
  Matrix.length_of_mem_map (Candidate.entry mode) h.length

theorem Listing.lt_of_mem_entryRows (h : Listing samples k selfMatch table) (mode : GraphMode) :
    ∀ row ∈ entryRows mode table, ∀ entry ∈ row, entry.1 < samples := by
  intro row hrow entry hentry
  obtain ⟨cs, hcs, rfl⟩ := List.mem_map.mp hrow
  obtain ⟨c, hc, rfl⟩ := List.mem_map.mp hentry
  exact h.inRange cs hcs c hc

theorem graphValues_ofTable (mode : GraphMode) :
    (Neighbors.ofTable k mode.needsDistances table).graphValues mode
      = .ok ((entryRows mode table).map (·.map Prod.snd)).flatten.toArray := by
  rw [map_snd_entryRows, ← List.map_flatten]
  cases mode with
  | connectivity =>
    simp [Neighbors.graphValues, Neighbors.ofTable, Matrix.layout, GraphMode.weight,
      ← List.map_flatten, List.map_const']
  | distance =>
    simp [Neighbors.graphValues, Neighbors.ofTable, Matrix.layout, GraphMode.weight,
      GraphMode.needsDistances, ← List.map_flatten]

/-- A listing can always be laid out, and its graph has the listed rows. -/
theorem toGraph_ofTable (h : Listing samples k selfMatch table) (mode : GraphMode) :
    ((Neighbors.ofTable k mode.needsDistances table).toGraph samples mode).result
      = .ok (SparseMatrix.ofTable samples k (entryRows mode table)) := by
  unfold Neighbors.toGraph
  simp only [Traced.result_bind, Traced.result_liftM, Traced.result_emit, ok_bind,
    graphValues_ofTable]
  rw [← SparseMatrix.ofUniformRows_eq h.pos (h.length_of_mem_entryRows mode)
    (h.lt_of_mem_entryRows mode), map_fst_entryRows]
  rfl

end Graph

/-! ## Reading a graph -/

/-- `v` is what a row with these entries has in a column: the value of the entry that lies there, or
zero if there is none. -/
structure Reads (entries : List (Nat × Float32)) (column : Nat) (v : Float32) : Prop where
  listed : ∀ w, (column, w) ∈ entries → Alike v w
  unlisted : (∀ w, (column, w) ∉ entries) → Alike v 0

section Reads

variable {entries : List (Nat × Float32)} (hdistinct : (entries.map Prod.fst).Nodup) (column : Nat)
include hdistinct

theorem reads_valueTotal :
    Reads entries column (SparseMatrix.valueTotal (SparseMatrix.valuesAt entries column)) := by
  constructor
  · intro w hw
    rw [SparseMatrix.valuesAt_of_mem hdistinct hw]
    exact Or.inl (negZero_add w)
  · intro hnone
    rw [SparseMatrix.valuesAt_of_not_mem hnone]
    exact Or.inr (by decide)

theorem reads_foldl :
    Reads entries column ((SparseMatrix.valuesAt entries column).foldl (· + ·) 0) := by
  constructor
  · intro w hw
    rw [SparseMatrix.valuesAt_of_mem hdistinct hw]
    exact zero_add_alike w
  · intro hnone
    rw [SparseMatrix.valuesAt_of_not_mem hnone]
    exact Or.inl rfl

end Reads

/-- A list of different numbers below `n` has as many of them as there are below `n`. -/
theorem countP_mem_range {js : List Nat} {n : Nat} (hdistinct : js.Nodup) (hlt : ∀ j ∈ js, j < n) :
    (List.range n).countP (· ∈ js) = js.length := by
  rw [List.countP_eq_length_filter]
  refine List.Perm.length_eq ?_
  refine (List.perm_ext_iff_of_nodup (List.nodup_range.filter _) hdistinct).mpr ?_
  intro j
  rw [List.mem_filter, List.mem_range, decide_eq_true_iff]
  exact ⟨And.right, fun hj => ⟨hlt j hj, hj⟩⟩

/-- Row `i` of a graph and of its dense form shows these entries. -/
structure SparseMatrix.ShowsRow (g : SparseMatrix) (dense : Matrix Float32) (mode : GraphMode)
    (selfMatch : SelfMatch) (i : Nat) (entries : List (Nat × Float32)) : Prop where
  stored : g.row? i = some entries
  reads : ∀ j < g.columns, ∃ v w, g.get? i j = some v ∧ dense.get? i j = some w ∧
    Reads entries j v ∧ Reads entries j w
  ones : mode = .connectivity → ∃ values, dense.row? i = some values ∧
    values.countP (· = 1) = entries.length ∧ (entries.length = g.columns → ∀ v ∈ values, v = 1)
  diagonal : selfMatch = .exclude → i < g.columns → dense.get? i i = some 0

/-- The graph and its dense form show these neighbors: the stored points at `indices`, nearest
first, at the distances that were reported. -/
structure SparseMatrix.Shows (g : SparseMatrix) (dense : Matrix Float32) (mode : GraphMode)
    (selfMatch : SelfMatch) (samples : Nat) (indices : Matrix Nat) (distances : Matrix Float32) :
    Prop where
  rows : g.rows = indices.rows
  columns : g.columns = samples
  offsets : g.offsets = (Array.range (indices.rows + 1)).map fun i => i * indices.columns
  places : g.indices = indices.data
  expands : g.Expands dense
  shape : dense.shape = (indices.rows, samples)
  row : ∀ i < indices.rows, ∃ js ds, indices.row? i = some js ∧ distances.row? i = some ds ∧
    js.length = indices.columns ∧ ds.length = indices.columns ∧
    g.ShowsRow dense mode selfMatch i (js.zip (ds.map mode.weight))

section Shows

variable {samples k : Nat} {selfMatch : SelfMatch} {table : List (List Candidate)}
  {mode : GraphMode}

/-- The dense form of a row of ones. -/
theorem foldl_ones {js : List Nat} (hdistinct : js.Nodup) (j : Nat) :
    (SparseMatrix.valuesAt (js.map fun j => (j, 1)) j).foldl (· + ·) (0 : Float32)
      = if j ∈ js then 1 else 0 := by
  by_cases hmem : j ∈ js
  · have hplaces : ((js.map fun j => (j, (1 : Float32))).map Prod.fst).Nodup := by
      simpa [Function.comp_def] using hdistinct
    have hentry : (j, (1 : Float32)) ∈ js.map fun j => (j, (1 : Float32)) :=
      List.mem_map.mpr ⟨j, hmem, rfl⟩
    have hone : (0 : Float32) + 1 = 1 := by decide
    rw [SparseMatrix.valuesAt_of_mem hplaces hentry, if_pos hmem]
    exact hone
  · have hnone : ∀ v, (j, v) ∉ js.map fun j => (j, (1 : Float32)) := by
      intro v hv
      obtain ⟨j', hj', heq⟩ := List.mem_map.mp hv
      cases heq
      exact hmem hj'
    rw [SparseMatrix.valuesAt_of_not_mem hnone, if_neg hmem]
    rfl

/-- A row of ones at distinct places has as many ones as places. -/
theorem countP_ones {js : List Nat} (hdistinct : js.Nodup) (hlt : ∀ j ∈ js, j < samples)
    {values : List Float32} (hlength : values.length = samples)
    (hvalues : ∀ j < samples, values[j]?
      = some ((SparseMatrix.valuesAt (js.map fun j => (j, 1)) j).foldl (· + ·) 0)) :
    values.countP (· = 1) = js.length := by
  have hones : values = (List.range samples).map fun j => if j ∈ js then 1 else 0 := by
    refine List.ext_getElem? ?_
    intro j
    by_cases hj : j < samples
    · rw [hvalues j hj, foldl_ones hdistinct, List.getElem?_map, List.getElem?_range hj,
        Option.map_some]
    · rw [List.getElem?_eq_none (by omega), List.getElem?_eq_none (by simp; omega)]
  have hzero : ¬(0 : Float32) = 1 := by decide
  rw [hones, List.countP_map, ← countP_mem_range hdistinct hlt]
  refine List.countP_congr ?_
  intro j _
  by_cases hmem : j ∈ js
  · simp [hmem]
  · simp [hmem, hzero]

/-- A graph that stores a row of neighbors shows it, and so does its dense form. -/
theorem SparseMatrix.showsRow {g : SparseMatrix} {dense : Matrix Float32} {i : Nat}
    {row : List Candidate} (hstored : g.row? i = some (row.map (Candidate.entry mode)))
    (hdistinct : (row.map Candidate.index).Nodup) (hlt : ∀ c ∈ row, c.index < g.columns)
    (hothers : selfMatch = .exclude → ∀ c ∈ row, c.index ≠ i) (hwell : dense.WellFormed)
    (hi : i < dense.rows) (hcolumns : dense.columns = g.columns)
    (hdense : ∀ j < g.columns, dense.get? i j
      = some ((valuesAt (row.map (Candidate.entry mode)) j).foldl (· + ·) 0)) :
    g.ShowsRow dense mode selfMatch i (row.map (Candidate.entry mode)) := by
  have hplaces : ((row.map (Candidate.entry mode)).map Prod.fst).Nodup := by
    rw [List.map_map]
    exact hdistinct
  refine ⟨hstored, ?_, ?_, ?_⟩
  · intro j hj
    refine ⟨_, _, ?_, hdense j hj, reads_valueTotal hplaces j, reads_foldl hplaces j⟩
    rw [get?, hstored, Option.map_some]
    rfl
  · rintro rfl
    have hlength := Matrix.length_rowAt hwell hi
    have hcount : (dense.rowAt i).countP (· = 1) = (row.map Candidate.index).length := by
      refine countP_ones hdistinct ?_ (hlength.trans hcolumns) ?_
      · intro j hj
        obtain ⟨c, hc, rfl⟩ := List.mem_map.mp hj
        exact hlt c hc
      · intro j hj
        rw [Matrix.getElem?_rowAt hwell hi (hcolumns ▸ hj), hdense j hj, List.map_map]
        rfl
    rw [List.length_map, ← List.length_map (Candidate.entry .connectivity)] at hcount
    refine ⟨_, Matrix.row?_eq hwell hi, hcount, ?_⟩
    intro hall v hv
    rw [hall, ← hcolumns, ← hlength] at hcount
    simpa using List.countP_eq_length.mp hcount v hv
  · intro hexclude hdiagonal
    rw [hdense i hdiagonal, valuesAt_of_not_mem]
    · rfl
    · intro v hv
      obtain ⟨c, hc, heq⟩ := List.mem_map.mp hv
      exact hothers hexclude c hc (congrArg Prod.fst heq)

/-- The graph of a listing shows the listed neighbors. -/
theorem Listing.exists_shows (h : Listing samples k selfMatch table) (mode : GraphMode) :
    ∃ dense, (SparseMatrix.ofTable samples k (entryRows mode table)).Shows dense mode selfMatch
      samples (.layout k (table.map (·.map Candidate.index)))
      (.layout k (table.map (·.map fun c => narrow c.distance))) := by
  have hrows := h.length_of_mem_entryRows mode
  obtain ⟨dense, hexpands, hshape, hwell, hdense⟩ :=
    SparseMatrix.exists_expands (SparseMatrix.readable_ofTable hrows (h.lt_of_mem_entryRows mode))
  have hcount : (entryRows mode table).length = table.length := List.length_map _
  have hindices : (table.map (·.map Candidate.index)).length = table.length := List.length_map _
  refine ⟨dense, hcount.trans hindices.symm, rfl, ?_, ?_, hexpands, ?_, ?_⟩
  · simp only [SparseMatrix.ofTable, Matrix.layout, hcount, hindices]
  · simp only [SparseMatrix.ofTable, Matrix.layout, map_fst_entryRows]
  · simpa only [SparseMatrix.ofTable, Matrix.layout, hcount, hindices] using hshape
  · intro i hi
    have hi : i < table.length := by simpa [Matrix.layout] using hi
    have hrow : table[i]? = some table[i] := List.getElem?_eq_getElem hi
    have hmem : table[i] ∈ table := List.getElem_mem hi
    have hmap : ∀ {β : Type} (f : Candidate → β),
        (table.map (·.map f))[i]? = some (table[i].map f) := by
      intro β f
      rw [List.getElem?_map, hrow, Option.map_some]
    have hstored : (SparseMatrix.ofTable samples k (entryRows mode table)).row? i
        = some (table[i].map (Candidate.entry mode)) := SparseMatrix.row?_ofTable hrows (hmap _)
    have hlength : ∀ {β : Type} (f : Candidate → β), (table[i].map f).length = k := by
      intro β f
      rw [List.length_map, h.length _ hmem]
    refine ⟨_, _, Matrix.row?_layout (Matrix.length_of_mem_map _ h.length) (hmap _),
      Matrix.row?_layout (Matrix.length_of_mem_map _ h.length) (hmap _), hlength _, hlength _, ?_⟩
    have hentries : (table[i].map Candidate.index).zip
        ((table[i].map fun c => narrow c.distance).map mode.weight)
        = table[i].map (Candidate.entry mode) := by
      rw [List.map_map, List.zip_map']
      rfl
    have hdenseRows : dense.rows = table.length := (congrArg Prod.fst hshape).trans hcount
    rw [hentries]
    refine SparseMatrix.showsRow hstored (h.distinct _ hmem) (h.inRange _ hmem)
      (fun hexclude => h.others hexclude i _ hrow) hwell (hdenseRows ▸ hi)
      (congrArg Prod.snd hshape) ?_
    intro j hj
    rw [hdense i (hi.trans_eq hcount.symm) j hj, SparseMatrix.entries_eq hstored]

end Shows

/-! ## Queries and graphs -/

/-- Queries and graphs are refused with the same error, or every graph shows what the queries
answer. How many query points there are may depend on the number of stored points. -/
def GraphsAgree (samples : Except Error Nat) (queries : Nat → Nat) (k : Nat) (selfMatch : SelfMatch)
    (answer : Bool → Except Error Neighbors) (graph : GraphMode → Except Error SparseMatrix) :
    Prop :=
  (∃ err, (∀ withDistances, answer withDistances = .error err) ∧
    ∀ mode, graph mode = .error err) ∨
  ∃ count indices distances, samples = .ok count ∧
    answer false = .ok ⟨indices, none⟩ ∧ answer true = .ok ⟨indices, some distances⟩ ∧
    indices.shape = (queries count, k) ∧ distances.shape = (queries count, k) ∧
    ∀ mode, ∃ g dense, graph mode = .ok g ∧ g.Shows dense mode selfMatch count indices distances

section GraphsAgree

variable {samples : Except Error Nat} {queries : Nat → Nat} {k : Nat} {selfMatch : SelfMatch}
  {answer : Bool → Except Error Neighbors} {graph : GraphMode → Except Error SparseMatrix}

theorem graphsAgree_of_refused {err : Error} (hsamples : samples = .error err)
    (hanswer : ∀ withDistances, answer withDistances = .error err)
    (hgraph : ∀ mode, graph mode = samples >>= fun columns => answer mode.needsDistances >>=
      fun found => (found.toGraph columns mode).result) :
    GraphsAgree samples queries k selfMatch answer graph := by
  refine Or.inl ⟨err, hanswer, ?_⟩
  intro mode
  rw [hgraph, hsamples, error_bind]

/-- If the index answers from one table, the graphs agree with the answers. -/
theorem graphsAgree_of_oneTable {count : Nat} (hsamples : samples = .ok count)
    (hone : OneTable count (queries count) k selfMatch answer)
    (hgraph : ∀ mode, graph mode = samples >>= fun columns => answer mode.needsDistances >>=
      fun found => (found.toGraph columns mode).result) :
    GraphsAgree samples queries k selfMatch answer graph := by
  rcases hone with ⟨err, hanswer⟩ | ⟨table, hlisting, hlength, hanswer⟩
  · refine Or.inl ⟨err, hanswer, ?_⟩
    intro mode
    rw [hgraph, hsamples, ok_bind, hanswer, error_bind]
  · refine Or.inr ⟨count, _, _, hsamples, hanswer false, hanswer true, ?_, ?_, ?_⟩
    · exact Prod.ext ((List.length_map _).trans hlength) rfl
    · exact Prod.ext ((List.length_map _).trans hlength) rfl
    · intro mode
      obtain ⟨dense, hshows⟩ := hlisting.exists_shows mode
      refine ⟨_, dense, ?_, hshows⟩
      rw [hgraph, hsamples, ok_bind, hanswer, ok_bind, toGraph_ofTable hlisting]

end GraphsAgree

namespace Estimator

/-- In every state of an estimator, for query points of any shape and element type, every number of
neighbors, mode and choice about the point itself: the graph agrees with the query. -/
theorem graphs_agree (e : Estimator) (n : Option Nat) :
    (∀ {α : Type} [Element α] (x : Matrix α),
      GraphsAgree e.sampleCount (fun _ => x.rows) (n.getD e.config.neighbors) .include
        (fun withDistances => (e.query x n withDistances).result)
        fun mode => (e.index.graph x n mode).result) ∧
    ∀ selfMatch, GraphsAgree e.sampleCount id (n.getD e.config.neighbors) selfMatch
      (fun withDistances => (e.queryFitted n selfMatch withDistances).result)
      fun mode => (e.index.graphFitted n mode selfMatch).result := by
  cases hs : e.fitted with
  | none =>
    have hsamples : e.sampleCount = .error (.notFitted displayName) := by
      simp [sampleCount, fittedData, fittedSet, hs, Except.map]
    constructor
    · intro α _ x
      refine graphsAgree_of_refused hsamples ?_ (graph_result e x n)
      simp [query, fittedData, fittedSet, hs, Except.map]
    · intro selfMatch
      refine graphsAgree_of_refused hsamples ?_ fun mode => graphFitted_result e n mode selfMatch
      simp [queryFitted, fittedData, fittedSet, hs, Except.map]
  | some s =>
    constructor
    · intro α _ x
      exact graphsAgree_of_oneTable (sampleCount_eq hs) (oneTable_query hs x) (graph_result e x n)
    · intro selfMatch
      exact graphsAgree_of_oneTable (sampleCount_eq hs) (oneTable_queryFitted hs selfMatch)
        fun mode => graphFitted_result e n mode selfMatch

end Estimator

end NeighborSearch
