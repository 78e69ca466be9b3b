import PagedQuery.Postgres.Session
import PagedQuery.Proofs.Fetching
import PagedQuery.Proofs.Json.Number

/-!
# Bound arguments and their values

Both statements of a plan run with one row of arguments, an argument for each value in
the order of the values. An argument says what its value says, with one exception: a
whole number above the signed 64-bit integers becomes a double, and a double holds of
these numbers only the multiples of 2048.
-/
namespace PagedQuery

/-- A whole number up to the largest signed 64-bit integer, or a multiple of the distance of
the doubles above it; or a double. -/
def Number.FitsArgument : Number → Prop
  | integer n _ => n < 0x8000000000000000 ∨ 2048 ∣ n
  | double _ => True

/-- Only numbers can lose something as arguments. -/
def Value.FitsArgument : Value → Prop
  | number n => n.FitsArgument
  | _ => True

instance : DecidablePred Number.FitsArgument
  | .integer n _ => inferInstanceAs (Decidable (n < 0x8000000000000000 ∨ 2048 ∣ n))
  | .double _ => inferInstanceAs (Decidable True)

instance : DecidablePred Value.FitsArgument
  | .number n => inferInstanceAs (Decidable n.FitsArgument)
  | .null | .bool _ | .text _ | .array _ | .object _ => inferInstanceAs (Decidable True)

namespace Postgres

namespace Argument

/-- What an argument says to a server that gets it as it is. -/
inductive Denotes : Argument → Value → Prop
  | null : Denotes .null .null
  | flag (b : Bool) : Denotes (.flag b) (.bool b)
  | integer {n : Int64} {m : Number} (h : (n.toInt : ℚ) = m.value) :
      Denotes (.integer n) (.number m)
  | double {x : Double} {m : Number} (h : x.value = m.value) : Denotes (.double x) (.number m)
  | text (t : Text) : Denotes (.text t) (.text t)
  | array (items : List Value) : Denotes (.document (.array items)) (.array items)
  | object (fields : List (Text × Value)) : Denotes (.document (.object fields)) (.object fields)

theorem denotes_small {n : ℤ} (fits : -0x8000000000000000 ≤ n ∧ n < 0x10000000000000000)
    (h : n < 0x8000000000000000) :
    Denotes (ofNumber (.integer n fits)) (.number (.integer n fits)) := by
  rw [ofNumber, if_pos h]
  apply Denotes.integer
  rw [Int64.toInt_ofInt_of_le fits.1 h]
  rfl

/-- Above the signed integers the doubles are the multiples of 2048. -/
theorem denotes_large_iff {n : ℤ} (fits : -0x8000000000000000 ≤ n ∧ n < 0x10000000000000000)
    (h : 0x8000000000000000 ≤ n) :
    Denotes (ofNumber (.integer n fits)) (.number (.integer n fits)) ↔ 2048 ∣ n := by
  obtain ⟨k, rfl⟩ := Int.eq_ofNat_of_zero_le (Int.le_trans (by decide) h)
  have hword : (UInt64.ofNat k).toNat = k := UInt64.toNat_ofNat_of_lt' (by simp [UInt64.size]; omega)
  have hlog : k.log2 = 63 := (Nat.log2_eq_iff (by omega)).mpr ⟨by omega, by omega⟩
  have hexact := Double.value_ofUInt64_eq_iff (n := UInt64.ofNat k) (by rw [hword, hlog]; decide)
  rw [hword, hlog] at hexact
  have hdvd : (2048 : ℤ) ∣ (k : ℤ) ↔ 2 ^ (63 - 52) ∣ k := by norm_cast
  rw [ofNumber, if_neg (by omega), Int.toNat_natCast, hdvd, ← hexact]
  constructor
  · intro hdenotes
    cases hdenotes with
    | double hvalue => exact_mod_cast hvalue
  · intro hvalue
    exact .double (by exact_mod_cast hvalue)

/-- The argument of a value says what the value says exactly when no digits are rounded off. -/
theorem denotes_ofValue_iff (v : Value) : (ofValue v).Denotes v ↔ v.FitsArgument := by
  cases v with
  | null => exact iff_of_true .null trivial
  | bool b => exact iff_of_true (.flag b) trivial
  | text t => exact iff_of_true (.text t) trivial
  | array items => exact iff_of_true (.array items) trivial
  | object fields => exact iff_of_true (.object fields) trivial
  | number m =>
    cases m with
    | double x => exact iff_of_true (.double rfl) trivial
    | integer n fits =>
      by_cases hsmall : n < 0x8000000000000000
      · exact iff_of_true (denotes_small fits hsmall) (.inl hsmall)
      · have hlarge := denotes_large_iff fits (Int.not_lt.mp hsmall)
        exact hlarge.trans (or_iff_right hsmall).symm

end Argument

namespace Server

variable {σ : Type}

/-- The server that also keeps what it runs, the last statement at the end. -/
def recording (server : Server σ) : Server (σ × List (Text × List Argument)) where
  login who := fun (state, runs) =>
    let (answer, state) := server.login who state
    (answer, state, runs)
  run statement arguments := fun (state, runs) =>
    let (answer, state) := server.run statement arguments state
    (answer, state, runs ++ [(statement, arguments)])

section

variable (server : Server σ) (statement : Text) (parameters : List Value)

theorem count_state (state : σ) :
    (server.executor.count statement parameters state).2 =
      (server.run statement (parameters.map Argument.ofValue) state).2 := by
  simp only [executor]
  split
  · rename_i hrun
    rw [hrun]
  · rename_i hrun
    rw [hrun]

theorem query_state (state : σ) :
    (server.executor.query statement parameters state).2 =
      (server.run statement (parameters.map Argument.ofValue) state).2 := by
  simp only [executor]
  split
  · rename_i hrun
    rw [hrun]
  · rename_i hrun
    rw [hrun]
    split
    · rfl
    · rfl

variable (state : σ) (runs : List (Text × List Argument))

theorem runs_count :
    (server.recording.executor.count statement parameters (state, runs)).2.2 =
      runs ++ [(statement, parameters.map Argument.ofValue)] :=
  congrArg Prod.snd (server.recording.count_state statement parameters (state, runs))

theorem runs_query :
    (server.recording.executor.query statement parameters (state, runs)).2.2 =
      runs ++ [(statement, parameters.map Argument.ofValue)] :=
  congrArg Prod.snd (server.recording.query_state statement parameters (state, runs))

/-- A page is fetched by the count statement alone, or by both statements of the plan. -/
theorem runs_fetchPage {p : Planner} {r : Request} {plan : Plan} (hplan : p.plan r = .ok plan) :
    ∃ statements, (statements = [plan.countStatement] ∨
        statements = [plan.countStatement, plan.pageStatement]) ∧
      (p.fetchPage server.recording.executor r (state, runs)).2.2 =
        runs ++ statements.map fun statement =>
          (statement, plan.parameters.map Argument.ofValue) := by
  have hcounted := server.runs_count plan.countStatement plan.parameters state runs
  have hqueried := fun after : σ × List (Text × List Argument) =>
    server.runs_query plan.pageStatement plan.parameters after.1 after.2
  obtain ⟨block, answer, after, hfetches⟩ :=
    p.exists_fetches server.recording.executor r (state, runs)
  rw [hfetches.fetchPage_eq]
  cases hfetches with
  | unplanned herror => exact absurd (hplan.symm.trans herror) (by simp)
  | uncounted hplanned hcount =>
    cases hplan.symm.trans hplanned
    rw [hcount] at hcounted
    exact ⟨_, .inl rfl, hcounted⟩
  | nothing hplanned hcount =>
    cases hplan.symm.trans hplanned
    rw [hcount] at hcounted
    exact ⟨_, .inl rfl, hcounted⟩
  | @unqueried _ _ _ between _ hplanned hcount _ hquery =>
    cases hplan.symm.trans hplanned
    have hboth := hqueried between
    rw [hquery] at hboth
    rw [hcount] at hcounted
    exact ⟨_, .inr rfl, by rw [hboth, hcounted]; simp⟩
  | @fetched _ _ _ between _ hplanned hcount _ hquery =>
    cases hplan.symm.trans hplanned
    have hboth := hqueried between
    rw [hquery] at hboth
    rw [hcount] at hcounted
    exact ⟨_, .inr rfl, by rw [hboth, hcounted]; simp⟩

end

/-- Every server runs count statements and page statements with the same arguments, one for
each value in order, and an argument says what its value says exactly when no digits of a
whole number are rounded off. -/
theorem bound_denote_iff (parameters : List Value) :
    ∃ arguments : List Argument,
      List.Forall₂ (fun argument value => argument.Denotes value ↔ value.FitsArgument)
        arguments parameters ∧
      ∀ (σ : Type) (server : Server σ) (state : σ) (runs : List (Text × List Argument)),
        (∀ statement,
          (server.recording.executor.count statement parameters (state, runs)).2.2 =
              runs ++ [(statement, arguments)] ∧
            (server.recording.executor.query statement parameters (state, runs)).2.2 =
              runs ++ [(statement, arguments)]) ∧
          ∀ (p : Planner) (r : Request) (plan : Plan), p.plan r = .ok plan →
            plan.parameters = parameters →
              ∃ statements, (statements = [plan.countStatement] ∨
                  statements = [plan.countStatement, plan.pageStatement]) ∧
                (p.fetchPage server.recording.executor r (state, runs)).2.2 =
                  runs ++ statements.map fun statement => (statement, arguments) := by
  refine ⟨parameters.map Argument.ofValue, ?_, fun σ server state runs => ⟨fun statement =>
    ⟨server.runs_count statement parameters state runs,
      server.runs_query statement parameters state runs⟩, ?_⟩⟩
  · rw [List.forall₂_map_left_iff]
    exact List.forall₂_same.mpr fun value _ => Argument.denotes_ofValue_iff value
  · intro p r plan hplan hparameters
    rw [← hparameters]
    exact server.runs_fetchPage state runs hplan

end Server

namespace Argument

/-- The first whole number above the signed integers that is no multiple of 2048 is bound as
the number in front of it. -/
theorem not_denotes_rounded :
    let n : Value := .number (.integer 0x8000000000000001 (by decide))
    ¬(ofValue n).Denotes n ∧
      (ofValue n).Denotes (.number (.integer 0x8000000000000000 (by decide))) := by
  intro n
  have hsame : ofValue n = ofValue (.number (.integer 0x8000000000000000 (by decide))) := rfl
  refine ⟨mt (denotes_ofValue_iff n).mp (by decide), ?_⟩
  rw [hsame]
  exact (denotes_ofValue_iff _).mpr (by decide)

end Argument

end Postgres

end PagedQuery
