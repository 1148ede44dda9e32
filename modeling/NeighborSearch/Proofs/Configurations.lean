import NeighborSearch.Json.Form
import NeighborSearch.Proofs.Documents
import NeighborSearch.Proofs.NotANumber
import NeighborSearch.Proofs.Fitting

/-!
# Stored configurations

A configuration is read back from its text unless a number in it cannot be kept: NaN and the
infinities are written as `null`, and a count has 64 binary digits. The check of a configuration
refuses NaN but lets an infinite exponent pass: `Config.stored_unless_infinite`.
-/

namespace NeighborSearch

/-! ## Numbers -/

theorem isFinite_eq_not_isInf {x : Float} (hx : x.isNaN = false) : x.isFinite = !x.isInf := by
  change x.toModel.unpack.isNaN = false at hx
  change x.toModel.unpack.isFinite = !x.toModel.unpack.isInf
  revert hx
  cases x.toModel.unpack with
  | notANumber => exact fun hx => nomatch hx
  | _ => exact fun _ => rfl

namespace Json

theorem int?_int (low high k : Int) :
    (int k).int? low high = if low ≤ k ∧ k ≤ high then some k else none := by
  simp only [int?, int, Numeral.toInt?_ofInt, Option.filter_some, Bool.and_eq_true,
    decide_eq_true_eq]

/-- A count is kept if it has 64 binary digits. -/
theorem nat?_nat (n : Nat) : (nat n).nat? = if n < 2 ^ 64 then some n else none := by
  rw [nat?, nat, int?_int]
  split_ifs with hrange hbits hbits
  · rfl
  · omega
  · omega
  · rfl

theorem proper_nat (n : Nat) : (nat n).Proper := .number (Numeral.proper_ofInt n)

/-- A binary64 number is written as the numeral that is read as it, or as `null` if it has none. -/
theorem float_cases (x : Float) :
    (x.isFinite = true ∧ ∃ n : Numeral, float x = .number n ∧ n.Proper ∧ n.toFloat = x) ∨
      x.isFinite = false ∧ float x = .null := by
  rw [float, ← Decimal.isSome_interchange x]
  cases hn : Decimal.interchange.float? x with
  | none => exact .inr ⟨rfl, rfl⟩
  | some n =>
    exact .inl ⟨rfl, n, rfl, Decimal.proper_interchange hn, Decimal.toFloat_interchange hn⟩

/-- A binary64 number is kept if it is finite. -/
theorem float?_float (x : Float) : (float x).float? = if x.isFinite then some x else none := by
  rcases float_cases x with ⟨hx, n, hn, -, hread⟩ | ⟨hx, hnull⟩
  · rw [hn, float?, hread]
  · rw [hnull, hx]
    rfl

theorem proper_float (x : Float) : (float x).Proper := by
  rcases float_cases x with ⟨-, n, hn, hproper, -⟩ | ⟨-, hnull⟩
  · exact hn ▸ .number hproper
  · exact hnull ▸ .null

/-- A binary64 number can be set aside, also as `null`. -/
theorem canHold_float (depth : Nat) (x : Float) : (float x).canHold depth = true := by
  rcases float_cases x with ⟨hx, n, hn, -, hread⟩ | ⟨-, hnull⟩
  · rw [hn, canHold, hread, hx]
  · rw [hnull]
    rfl

/-! ## Records -/

/-- A record has the members that it was made of. -/
theorem members?_record (members : List (String × Json)) :
    (record members).members? = some members := by
  rw [record, members?]
  induction members with
  | nil => rfl
  | cons m members ih => simp [List.mapM_cons, ih]

/-- The fields of a record are its members of the given names. -/
theorem fields?_record (names : List String) (members : List (String × Json)) :
    (record members).fields? names = names.mapM (member? members) := by
  have hmembers := members?_record members
  rw [record] at hmembers ⊢
  rw [fields?, hmembers]
  · rfl
  · simp

theorem proper_record {members : List (String × Json)} (h : ∀ m ∈ members, m.2.Proper) :
    (record members).Proper := by
  refine .object ?_ ?_
  · intro m hm
    obtain ⟨m, -, rfl⟩ := List.mem_map.mp hm
    rfl
  · intro m hm
    obtain ⟨m', hm', rfl⟩ := List.mem_map.mp hm
    exact h m' hm'

end Json

/-! ## Metrics -/

namespace Metric

open Json

theorem proper_toJson (m : Metric) : m.toJson.Proper := by
  refine proper_record ?_
  cases m <;> simp [exponent?, text, proper_float, Proper.string]

theorem canHold_toJson (m : Metric) {depth : Nat} (hdepth : 0 < depth) :
    m.toJson.canHold depth = true := by
  rw [toJson]
  cases m.exponent? <;> simp [record, text, canHold, canHoldMembers, canHold_float, hdepth]

/-- Every metric without an exponent is found by its name. -/
theorem ofCanonical?_name (m : Metric) (hm : m.exponent? = none) :
    ofCanonical? m.name none = some m := by
  cases m with
  | minkowski p => cases hm
  | _ => rfl

/-- A metric is read back, where its nesting is allowed, unless its exponent is no finite number. -/
theorem ofJsonAt?_toJson (m : Metric) {depth : Nat} (hdepth : depth < nestingLimit) :
    ofJsonAt? depth m.toJson = if m.exponent?.all Float.isFinite then some m else none := by
  have hhold := m.canHold_toJson (Nat.sub_pos_of_lt hdepth)
  have hmembers : m.toJson.members?
      = some (("name", text m.name) :: (m.exponent?.map fun p => ("p", Json.float p)).toList) :=
    members?_record _
  unfold ofJsonAt?
  rw [hhold, hmembers]
  cases hm : m.exponent? with
  | none =>
    simp [toJson, record, text, member?, text?, m.ofCanonical?_name hm]
  | some p =>
    obtain rfl : m = .minkowski p := by
      cases m <;> cases hm
      rfl
    cases hp : p.isFinite <;>
      simp [toJson, record, text, member?, text?, name, ofCanonical?, float?_float, hp]

end Metric

/-! ## Configurations -/

namespace Config

open Json

variable {config : Config}

theorem proper_toJson (config : Config) : config.toJson.Proper := by
  refine proper_record ?_
  simp [proper_nat, config.metric.proper_toJson]

/-- What is read from the form of a configuration. -/
theorem ofJson?_toJson (config : Config) :
    ofJson? config.toJson
      = if config.neighbors < 2 ^ 64 ∧ config.metric.exponent?.all Float.isFinite then some config
        else none := by
  obtain ⟨neighbors, metric⟩ := config
  have hfields : Json.fields? ["n_neighbors", "metric"] (toJson ⟨neighbors, metric⟩)
      = some [some (.nat neighbors), some metric.toJson] := by
    rw [toJson, fields?_record]
    simp [member?]
  have hmetric := metric.ofJsonAt?_toJson (show 1 < nestingLimit by decide)
  rw [ofJson?, hfields]
  simp only [Option.bind_eq_bind, Option.bind_some, Option.elim_some, nat?_nat, hmetric]
  by_cases hbits : neighbors < 2 ^ 64
  · simp only [hbits, if_true, true_and]
    split_ifs <;> rfl
  · simp only [hbits, if_false, false_and]
    rfl

/-- What is read from the text of a configuration. -/
theorem parse_render_toJson (config : Config) :
    (parse (render config.toJson)).bind ofJson?
      = if config.neighbors < 2 ^ 64 ∧ config.metric.exponent?.all Float.isFinite then some config
        else none := by
  rw [parse_render config.proper_toJson, Option.bind_some, ofJson?_toJson]

/-- The text of a valid configuration gives the same configuration back, and from it an estimator
that is configured alike, unless the exponent is infinite: such a text is refused. -/
theorem stored_unless_infinite (hvalid : config.validate = .ok ())
    (hbits : config.neighbors < 2 ^ 64) :
    (parse (render config.toJson)).bind ofJson?
        = (if config.metric.exponent?.any Float.isInf then none else some config) ∧
      ∀ restored, (parse (render config.toJson)).bind ofJson? = some restored →
        restored = config ∧ Estimator.ofConfig restored = .ok { config } := by
  have hfinite : config.metric.exponent?.all Float.isFinite
      = !config.metric.exponent?.any Float.isInf := by
    obtain ⟨neighbors, metric⟩ := config
    cases metric with
    | minkowski p =>
      have hparameter := (validate_eq_ok_iff.mp hvalid).2
      exact isFinite_eq_not_isInf (Metric.validate_minkowski hparameter).1
    | _ => rfl
  have hread := config.parse_render_toJson
  simp only [hbits, true_and, hfinite] at hread
  constructor
  · rw [hread]
    cases config.metric.exponent?.any Float.isInf <;> rfl
  · intro restored hrestored
    rw [hread] at hrestored
    obtain rfl := Option.some.inj (Option.ite_none_right_eq_some.mp hrestored).2
    exact ⟨rfl, by rw [Estimator.ofConfig, hvalid]; rfl⟩

/-- The largest finite exponent is kept. -/
theorem steep_stored :
    validate ⟨7, .minkowski (Float.ofBits 0x7FEFFFFFFFFFFFFF)⟩ = .ok () ∧
      (parse (render (toJson ⟨7, .minkowski (Float.ofBits 0x7FEFFFFFFFFFFFFF)⟩))).bind ofJson?
        = some ⟨7, .minkowski (Float.ofBits 0x7FEFFFFFFFFFFFFF)⟩ := by
  have hvalid : validate ⟨7, .minkowski (Float.ofBits 0x7FEFFFFFFFFFFFFF)⟩ = .ok () := by
    decide +kernel
  exact ⟨hvalid, (stored_unless_infinite hvalid (by decide)).1.trans (if_neg (by decide +kernel))⟩

/-- An infinite exponent is valid, but its text holds no configuration. -/
theorem infinite_exponent_lost :
    validate ⟨5, .minkowski (1 / 0)⟩ = .ok () ∧
      render (toJson ⟨5, .minkowski (1 / 0)⟩)
        = "\x7b\"n_neighbors\":5,\"metric\":\x7b\"name\":\"minkowski\",\"p\":null\x7d\x7d" ∧
      (parse (render (toJson ⟨5, .minkowski (1 / 0)⟩))).bind ofJson? = none := by
  refine ⟨by decide +kernel, by decide +kernel, ?_⟩
  rw [parse_render_toJson]
  decide +kernel

end Config

end NeighborSearch
