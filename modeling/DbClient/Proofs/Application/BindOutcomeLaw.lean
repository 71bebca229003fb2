import DbClient.Proofs.Application.BindSetLaw
import DbClient.Proofs.Application.CapacityLaw
import DbClient.Proofs.Scope.Telling
import DbClient.Proofs.Transfer.Sizes

/-! How binds end. The index, the stage of the statement and what is bound to it decide first, each kind of refusal
before the next one. Then the buffer of the variable has to fit, and only then the native library is asked. A bind that
fails has done nothing. -/
namespace DbClient
open Act World

namespace StatementData

/-- What stands against binding a variable of a type under a name. -/
inductive Hinders (d : StatementData) (limit : Nat) (name : String) (ty : ValueType) : ClientError → Prop
  /-- The name is bound, and binding it again is not allowed. -/
  | used (hname : name ∈ d.binds.names) (hallow : d.allowRebinding = false) :
      Hinders d limit name ty (.bindAlreadyUsed name)
  /-- It is allowed, but the name is bound to another type. -/
  | badType (o : BindObject) (ho : o ∈ d.binds.objects) (hname : o.name = name) (hallow : d.allowRebinding = true)
      (hty : o.ty ≠ ty) : Hinders d limit name ty (.rebindBadType name o.ty ty)
  /-- The name is new, and the statement is executed. -/
  | late (hname : name ∉ d.binds.names) (hstage : d.status = .executed) :
      Hinders d limit name ty (.invalidState "bind" .alreadyExecuted)
  /-- It is not, but as many variables are bound as may be. -/
  | full (hname : name ∉ d.binds.names) (hstage : d.status ≠ .executed) (hsize : d.binds.size = limit) :
      Hinders d limit name ty (.outOfBounds "bind count" (limit + 1) 1 limit)

/-- Why a bind fails under an index with what is planned for it, when the native library is about to meet a failure,
or none. -/
inductive BindFails (d : StatementData) (limit : Nat) (failure? : Option NativeError) (index : BindIndex)
    (plan : BindPlan) : ClientError → Prop
  /-- Positions count from one. -/
  | origin (hindex : index = .position 0) :
      BindFails d limit failure? index plan (.outOfBounds "bind position" 0 1 BindIndex.maxSize)
  /-- The statement has no text. -/
  | early (hindex : index ≠ .position 0) (hstage : d.status.rank < Status.prepared.rank) :
      BindFails d limit failure? index plan (.invalidState "bind" (.statusBelow d.status .prepared))
  /-- The variables that are bound, or their number, stand against it. -/
  | hindered {e : ClientError} (hindex : index ≠ .position 0) (hstage : Status.prepared.rank ≤ d.status.rank)
      (he : d.Hinders limit index.text plan.ty e) : BindFails d limit failure? index plan e
  /-- Nothing does, but no buffer can be as long as the one that is planned. -/
  | overflow (hindex : index ≠ .position 0) (hstage : Status.prepared.rank ≤ d.status.rank)
      (hfree : ∀ e, ¬d.Hinders limit index.text plan.ty e) (hover : ¬plan.Fits) :
      BindFails d limit failure? index plan .overflow
  /-- One can, but the native bind fails. -/
  | refused {e : NativeError} (hindex : index ≠ .position 0) (hstage : Status.prepared.rank ≤ d.status.rank)
      (hfree : ∀ e, ¬d.Hinders limit index.text plan.ty e) (hfit : plan.Fits) (hfailure : failure? = some e) :
      BindFails d limit failure? index plan (.native e ⟨d.sql, some index.text, none, none⟩)

variable {d : StatementData} {limit : Nat} {name : String} {ty : ValueType} {e e' : ClientError}
  {failure? : Option NativeError} {index : BindIndex} {plan : BindPlan}

lemma get?_eq_none : d.binds.get? name = none ↔ name ∉ d.binds.names := by
  simp [BindsHolder.get?, BindsHolder.names]

/-- What is found in the way of a bind is what stands against it. -/
theorem bindObstacle?_eq_some_iff (hnames : d.binds.names.Nodup) (hsize : d.binds.size ≤ limit) :
    Statement.bindObstacle? d limit name ty = some e ↔ d.Hinders limit name ty e := by
  unfold Statement.bindObstacle?
  cases hget : d.binds.get? name with
  | none =>
    have hnew := get?_eq_none.mp hget
    constructor
    · intro h
      dsimp only at h
      split at h
      · rename_i hstage
        obtain rfl := Option.some.inj h
        exact .late hnew hstage
      · rename_i hstage
        split at h
        · rename_i hfull
          obtain rfl : d.binds.size = limit := Nat.le_antisymm hsize hfull
          obtain rfl := Option.some.inj h
          exact .full hnew hstage rfl
        · cases h
    · intro h
      cases h with
      | used hname => exact absurd hname hnew
      | badType o ho hname => exact absurd (hname ▸ List.mem_map_of_mem ho) hnew
      | late _ hstage => exact if_pos hstage
      | full _ hstage hfull =>
        subst hfull
        exact (if_neg hstage).trans (if_pos (Nat.le_refl _))
  | some o =>
    obtain ⟨ho, rfl⟩ := BindsHolder.mem_of_get? hget
    have hbound : o.name ∈ d.binds.names := List.mem_map_of_mem ho
    constructor
    · intro h
      dsimp only at h
      split at h
      · rename_i hallow
        obtain rfl := Option.some.inj h
        exact .used hbound (by simpa using hallow)
      · rename_i hallow
        split at h
        · rename_i hty
          obtain rfl := Option.some.inj h
          exact .badType o ho rfl (by simpa using hallow) hty
        · cases h
    · intro h
      cases h with
      | used _ hallow => simp [hallow]
      | badType p hp hname hallow hty =>
        obtain rfl := List.inj_on_of_nodup_map hnames hp ho hname
        simp [hallow, hty]
      | late hnew => exact absurd hbound hnew
      | full hnew => exact absurd hbound hnew

/-- There is at most one reason for which a bind fails. -/
lemma BindFails.unique (hnames : d.binds.names.Nodup) (hsize : d.binds.size ≤ limit)
    (h : d.BindFails limit failure? index plan e) (h' : d.BindFails limit failure? index plan e') : e = e' := by
  cases h with
  | origin hindex =>
    cases h' with
    | origin => rfl
    | early hne | hindered hne | overflow hne | refused hne => exact absurd hindex hne
  | early hindex hstage =>
    cases h' with
    | origin h => exact absurd h hindex
    | early => rfl
    | hindered _ hle | overflow _ hle | refused _ hle => exact absurd hstage (Nat.not_lt_of_le hle)
  | hindered hindex hstage he =>
    cases h' with
    | origin h => exact absurd h hindex
    | early _ hlt => exact absurd hlt (Nat.not_lt_of_le hstage)
    | hindered _ _ he' =>
      exact Option.some.inj (((bindObstacle?_eq_some_iff hnames hsize).mpr he).symm.trans
        ((bindObstacle?_eq_some_iff hnames hsize).mpr he'))
    | overflow _ _ hfree | refused _ _ hfree => exact absurd he (hfree _)
  | overflow hindex hstage hfree hover =>
    cases h' with
    | origin h => exact absurd h hindex
    | early _ hlt => exact absurd hlt (Nat.not_lt_of_le hstage)
    | hindered _ _ he => exact absurd he (hfree _)
    | overflow => rfl
    | refused _ _ _ hfit => exact absurd hfit hover
  | refused hindex hstage hfree hfit hfailure =>
    cases h' with
    | origin h => exact absurd h hindex
    | early _ hlt => exact absurd hlt (Nat.not_lt_of_le hstage)
    | hindered _ _ he => exact absurd he (hfree _)
    | overflow _ _ _ hover => exact absurd hfit hover
    | refused _ _ _ _ hfailure' =>
      obtain rfl := Option.some.inj (hfailure.symm.trans hfailure')
      rfl

end StatementData

/-- Worlds that are the same to all statements, and to all that is bound to them. -/
structure World.Untouched (w w' : World) : Prop where
  nodes : w'.nodes = w.nodes
  envs : w'.envs = w.envs
  vars : w'.vars = w.vars
  /-- The tables of the native library, -/
  stmts : w'.library.stmts = w.library.stmts
  executions : w'.library.executions = w.library.executions
  /-- and the buffers that stand in them. -/
  buffers : ∀ b, w'.memory.get? b = w.memory.get? b

lemma World.Untouched.refl (w : World) : w.Untouched w := ⟨rfl, rfl, rfl, rfl, rfl, fun _ => rfl⟩

namespace Statement
variable {w w' : World} {id var : Nat} {n : Node} {s : Statement} {d : StatementData} {v : HostVar}

end Statement

namespace Application
variable {a : Application}

end Application
end DbClient
