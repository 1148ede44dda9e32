import NeighborSearch.Proofs.AnswerGraphs

/-!
# Graphs of any index

A neighbor graph asks an index for the number of its points and then puts one query to it, whatever
the index keeps in its state and however wrong its answers are. Errors come back as they are, and an
answer is laid out if it can be, `graphs_of_any_index`.
-/

namespace NeighborSearch

/-! ## What an index is asked -/

theorem GraphMode.needsDistances_eq (mode : GraphMode) :
    mode.needsDistances = decide (mode = .distance) := by
  cases mode <;> rfl

/-- A graph is built from the number of points and one answer, asked for in this order and from the
state that came before. The answer has distances if and only if the graph is to show them. -/
def BuiltFrom {σ : Type} (count : Stateful σ Nat) (answer : Bool → Stateful σ Neighbors)
    (graph : GraphMode → Stateful σ SparseMatrix) : Prop :=
  ∀ mode s,
    match count.runFrom s with
    | (.error err, s₁) => (graph mode).runFrom s = (.error err, s₁)
    | (.ok columns, s₁) =>
      match (answer (decide (mode = .distance))).runFrom s₁ with
      | (.error err, s₂) => (graph mode).runFrom s = (.error err, s₂)
      | (.ok found, s₂) => ((graph mode).runFrom s).2 = s₂ ∧
          (found.WellFormed → found.LaidOut columns mode ((graph mode).runFrom s).1)

section BuiltFrom

variable {σ : Type} {count : Stateful σ Nat} {answer : Bool → Stateful σ Neighbors}
  {graph : GraphMode → Stateful σ SparseMatrix}

/-- The steps of a graph are the count, then one query, then the layout. -/
theorem builtFrom (count : Stateful σ Nat) (answer : Bool → Stateful σ Neighbors) :
    BuiltFrom count answer fun mode => (do
      let columns ← count
      let found ← answer mode.needsDistances
      liftM (found.toGraph columns mode)) := by
  intro mode s
  -- the query is only put once the count is known, and only an answer is laid out
  simp only [Stateful.runFrom_bind, GraphMode.needsDistances_eq]
  rcases count.runFrom s with ⟨_ | columns, s₁⟩
  · rfl
  · dsimp only
    rcases (answer (decide (mode = .distance))).runFrom s₁ with ⟨_ | found, s₂⟩
    · rfl
    · exact ⟨rfl, fun hfound => Neighbors.laidOut_toGraph hfound columns mode⟩

/-- Building a graph leaves the state that the query left, or the count if it failed. -/
theorem BuiltFrom.state (h : BuiltFrom count answer graph) (mode : GraphMode) (s : σ) :
    ((graph mode).runFrom s).2 = match count.runFrom s with
      | (.error _, s₁) => s₁
      | (.ok _, s₁) => ((answer (decide (mode = .distance))).runFrom s₁).2 := by
  have hbuilt := h mode s
  rcases hcount : count.runFrom s with ⟨_ | columns, s₁⟩
  · rw [hcount] at hbuilt
    rw [hbuilt]
  · rw [hcount] at hbuilt
    dsimp only at hbuilt ⊢
    rcases hanswer : (answer (decide (mode = .distance))).runFrom s₁ with ⟨_ | found, s₂⟩
    · rw [hanswer] at hbuilt
      rw [hbuilt]
    · rw [hanswer] at hbuilt
      exact hbuilt.1

end BuiltFrom

/-- The questions that lead to a graph: how many points there are and, if that is known, another. -/
def questionsFor (samples : Except Error Nat) (question : Question) : List Question :=
  match samples with
  | .ok _ => [.sampleCount, question]
  | .error _ => [.sampleCount]

theorem Asking.runFrom_ask {α : Type} (question : Question) (answer : Except Error α)
    (asked : List Question) :
    (Asking.ask question answer).runFrom asked = (answer, asked ++ [question]) := rfl

/-- An index is asked for the count, and for one answer only if it has a count. -/
theorem BuiltFrom.asked {samples : Except Error Nat} {answers : Bool → Except Error Neighbors}
    {question : Bool → Question} {graph : GraphMode → Asking SparseMatrix}
    (h : BuiltFrom (Asking.ask .sampleCount samples)
      (fun withDistances => Asking.ask (question withDistances) (answers withDistances)) graph)
    (mode : GraphMode) :
    (graph mode).answer.2 = questionsFor samples (question (decide (mode = .distance))) := by
  rw [Asking.answer, h.state, Asking.runFrom_ask]
  cases samples with
  | error err => rfl
  | ok columns => rfl

namespace NeighborIndex

theorem builtFrom_graph {σ α : Type} [Element α] (index : NeighborIndex (Stateful σ)) (x : Matrix α)
    (n : Option Nat) : BuiltFrom index.sampleCount (index.query x n) (index.graph x n) :=
  builtFrom index.sampleCount (index.query x n)

theorem builtFrom_graphFitted {σ : Type} (index : NeighborIndex (Stateful σ)) (n : Option Nat)
    (selfMatch : SelfMatch) :
    BuiltFrom index.sampleCount (index.queryFitted n selfMatch)
      fun mode => index.graphFitted n mode selfMatch :=
  builtFrom index.sampleCount (index.queryFitted n selfMatch)

/-- Every index makes its graphs from the number of its points and one answer to the same request,
whatever they are. An index that notes its questions has noted these two. -/
theorem graphs_of_any_index {σ : Type} (index : NeighborIndex (Stateful σ))
    (stateless : NeighborIndex (Except Error)) (n : Option Nat) :
    ((∀ {α : Type} [Element α] (x : Matrix α),
        BuiltFrom index.sampleCount (index.query x n) (index.graph x n)) ∧
      ∀ selfMatch, BuiltFrom index.sampleCount (index.queryFitted n selfMatch)
        fun mode => index.graphFitted n mode selfMatch) ∧
    ∀ mode : GraphMode,
      (∀ {α : Type} [Element α] (x : Matrix α), (stateless.recorded.graph x n mode).answer.2
        = questionsFor stateless.sampleCount (.query x.rows n (decide (mode = .distance)))) ∧
      ∀ selfMatch, (stateless.recorded.graphFitted n mode selfMatch).answer.2
        = questionsFor stateless.sampleCount
          (.queryFitted n selfMatch (decide (mode = .distance))) :=
  ⟨⟨fun x => index.builtFrom_graph x n, fun selfMatch => index.builtFrom_graphFitted n selfMatch⟩,
    fun mode => ⟨fun x => (stateless.recorded.builtFrom_graph x n).asked mode,
      fun selfMatch => (stateless.recorded.builtFrom_graphFitted n selfMatch).asked mode⟩⟩

/-- An index that gives the same answer to every query and counts how often it is asked. -/
def fixed (samples : Nat) (found : Neighbors) : NeighborIndex (Stateful Nat) where
  sampleCount := fun asked => (.ok samples, asked + 1)
  query _ _ _ := fun asked => (.ok found, asked + 1)
  queryFitted _ _ _ := fun asked => (.ok found, asked + 1)

/-- Of one point and an answer that names a second one there is no graph. With two points there is
one, for no more questions. -/
theorem fixed_crossed_graphs :
    (((fixed 1 .crossed).graphFitted none .distance .include).runFrom 0).2 = 2 ∧
      (∃ err, (((fixed 1 .crossed).graphFitted none .distance .include).runFrom 0).1 = .error err) ∧
      (((fixed 2 .crossed).graphFitted none .distance .include).runFrom 0).2 = 2 ∧
      ¬∃ err, (((fixed 2 .crossed).graphFitted none .distance .include).runFrom 0).1
        = .error err := by
  have hwell : Neighbors.crossed.WellFormed :=
    ⟨rfl, fun ds hds => by cases hds; rfl⟩
  obtain ⟨hasked, hlaid⟩ := (graphs_of_any_index (fixed 1 .crossed)
    ⟨.ok 1, fun _ _ _ => .ok .crossed, fun _ _ _ => .ok .crossed⟩ none).1.2 .include .distance 0
  obtain ⟨hasked', hlaid'⟩ := (graphs_of_any_index (fixed 2 .crossed)
    ⟨.ok 2, fun _ _ _ => .ok .crossed, fun _ _ _ => .ok .crossed⟩ none).1.2 .include .distance 0
  have hunfit : Neighbors.crossed.Unfit 1 .distance :=
    Or.inl ⟨1, by simp [Neighbors.crossed], le_rfl⟩
  refine ⟨hasked, (hlaid hwell).refused.mpr hunfit, hasked', ?_⟩
  rw [(hlaid' hwell).refused]
  rintro (⟨j, hj, hle⟩ | ⟨-, hnone | ⟨ds, hds, hne⟩⟩)
  · revert j
    decide
  · cases hnone
  · cases hds
    exact hne rfl

end NeighborIndex

end NeighborSearch
