import DbClient.Proofs.Application.ChainWalks
import DbClient.Session.RowScript

/-! Callbacks that only look at rows spare the walk over a chain. So do the scripted ones, unless they make it fail. -/
namespace DbClient
open World RowAct Application

/-! ### Looking at rows -/

namespace Library
variable {α : Type} {l l' l'' : Library} {op : Primitive} {a : Address}

/-- Statements and cursors are as they were, and neither to take a resultset nor to fetch has been made to fail. -/
structure Spares (l l' : Library) : Prop where
  stmts : l'.stmts = l.stmts
  rsets : l'.rsets = l.rsets
  resultset : Steadies .resultset l l'
  fetch : Steadies .fetch l l'

namespace Spares

@[refl] lemma refl (l : Library) : Spares l l := ⟨rfl, rfl, id, id⟩

lemma trans (h : Spares l l') (h' : Spares l' l'') : Spares l l'' :=
  ⟨h'.stmts.trans h.stmts, h'.rsets.trans h.rsets, h'.resultset ∘ h.resultset, h'.fetch ∘ h.fetch⟩

lemma of_eq (stmts : l'.stmts = l.stmts) (rsets : l'.rsets = l.rsets) (failures : l'.failures = l.failures) :
    Spares l l' := ⟨stmts, rsets, .of_eq failures, .of_eq failures⟩

lemma run {body : Library → Option α × Library} (hb : ∀ m, Spares m (body m).2) (l : Library) :
    Spares l (Library.run op a body l).2 := by
  refine ⟨?_, ?_, .run (fun m => (hb m).resultset) l, .run (fun m => (hb m).fetch) l⟩ <;>
  · unfold Library.run
    dsimp only
    split
    · rfl
    · first | exact (hb _).stmts | exact (hb _).rsets

lemma columnCount (rs : Address) (l : Library) : Spares l (Library.columnCount rs l).2 := by
  unfold Library.columnCount
  split <;> exact of_eq rfl rfl rfl

lemma columnValue (rs : Address) (index : Nat) (l : Library) : Spares l (Library.columnValue rs index l).2 := by
  refine run (fun m => ?_) l
  split
  · exact of_eq rfl rfl rfl
  · split
    · exact of_eq rfl rfl rfl
    · split <;> exact of_eq rfl rfl rfl

/-- Another primitive is made to fail. -/
lemma failNext {e : NativeError} (hr : op ≠ .resultset) (hf : op ≠ .fetch) (l : Library) :
    Spares l (l.failNext op e) := by
  have hsteady : ∀ p, op ≠ p → Steadies p l (l.failNext op e) := fun p hp h => by
    change (l.failures.put op e).get? p = none
    rw [Assoc.get?_put, if_neg hp, h]
  exact ⟨rfl, rfl, hsteady _ hr, hsteady _ hf⟩

end Spares
end Library

namespace World
variable {t : Terms} {held : Multiset Item} {w w' w'' : World}

/-- Neither nodes nor chains nor cursors have changed. -/
structure Spares (w w' : World) : Prop where
  nodes : w'.nodes = w.nodes
  library : w.library.Spares w'.library

instance : Std.Refl Spares := ⟨fun _ => ⟨rfl, .refl _⟩⟩

instance : IsTrans World Spares := ⟨fun _ _ _ h h' => ⟨h'.nodes.trans h.nodes, h.library.trans h'.library⟩⟩

lemma Spares.ofLibrary {l : Library} (h : w.library.Spares l) : Spares w { w with library := l } := ⟨rfl, h⟩

/-- An application has looked around with what it holds. -/
structure Browses (t : Terms) (held : Multiset Item) (w w' : World) : Prop where
  runs : Runs t ⟨w, held⟩ ⟨w', held⟩
  spares : Spares w w'

instance : Std.Refl (Browses t held) := ⟨fun w => ⟨Relation.ReflTransGen.refl, refl_of Spares w⟩⟩

instance : IsTrans World (Browses t held) :=
  ⟨fun _ _ _ h h' => ⟨Relation.ReflTransGen.trans h.runs h'.runs, trans_of Spares h.spares h'.spares⟩⟩

/-- An operation that gives the application nothing. -/
lemma Browses.of_operation {α : Type} {a : Act α} (op : Operation) (hop : op.perform = a >>= fun _ => pure 0)
    (hp : op.Permitted t) (hs : op.spends = 0) (hu : ∀ i ∈ op.uses, ∃ j ∈ held, i ∈ j.parts)
    (h : Act.Does Spares a w) : Act.Does (Browses t held) a w := by
  refine ⟨Relation.ReflTransGen.single ⟨op, hp, ⟨hu, hs ▸ Multiset.zero_le _⟩, ?_⟩, h⟩
  unfold Operation.after
  rw [hop, hs, Act.run_bind, tsub_zero]
  rcases a.run w with ⟨e | x, v⟩ <;> exact congrArg (Application.mk v) (Multiset.zero_add held).symm

end World

namespace Resultset
open Act
variable {w : World} {t : Terms} {held : Multiset Item}

lemma spares_columnCount (rs : Resultset) : Does World.Spares rs.columnCount w :=
  Does.live fun _ n _ _ => Does.get (Does.require (Spares.ofLibrary (.columnCount n.native _))
    fun _ => .ofLibrary (.of_eq rfl rfl rfl))

lemma spares_column (rs : Resultset) (index : Nat) : Does World.Spares (rs.column index) w := by
  refine rs.spares_columnCount.seq fun count w' _ => ?_
  dsimp only
  split
  · exact Does.throw_bind _
  · refine Does.live fun _ n _ _ => ?_
    have hvalue : Does World.Spares (native (Library.columnValue n.native index)) w' :=
      Spares.ofLibrary (.columnValue n.native index _)
    refine hvalue.seq fun r v _ => ?_
    split
    · exact Does.pure _
    · have herror : Does World.Spares (native Library.lastError) v := Spares.ofLibrary (.of_eq rfl rfl rfl)
      refine herror.seq fun e u _ => ?_
      have hrow : Does World.Spares (native (Library.currentRow n.native)) u := Spares.ofLibrary (.of_eq rfl rfl rfl)
      exact hrow.seq fun _ _ _ => Does.get (Does.throw _)

/-- To read a column of a row is to look around. -/
lemma browses_get {rs : Resultset} (hrs : .resultset rs ∈ held) (index : Nat) (r : Request) :
    Does (Browses t held) (rs.get index r) w := by
  refine Browses.of_operation (.resultset rs (.get index r)) rfl trivial rfl (fun i hi => ?_)
    ((rs.spares_column index).seq fun _ _ _ => Does.ofExcept _)
  rw [List.mem_singleton.mp hi]
  exact ⟨.resultset rs, hrs, List.mem_singleton_self _⟩

end Resultset

/-! ### Callbacks that look at rows -/

namespace RowAct
variable {σ α β : Type} {R : World → World → Prop} {a : RowAct σ α}

/-- A part of a callback ends in a world that is related to the one it began in. -/
def Does (R : World → World → Prop) (a : RowAct σ α) : Prop := ∀ s w, R w (a.run (s, w)).2.2

namespace Does

lemma pure [Std.Refl R] (x : α) : Does R (Pure.pure x : RowAct σ α) := fun _ w => refl_of R w

lemma throw [Std.Refl R] (e : ClientError) : Does R (MonadExcept.throw e : RowAct σ α) := fun _ w => refl_of R w

lemma state [Std.Refl R] (f : σ → α × σ) : Does R (RowAct.state f) := fun _ w => refl_of R w

lemma ofAct {a : Act α} (h : ∀ w, Act.Does R a w) : Does R (RowAct.ofAct a : RowAct σ α) := fun _ w => h w

theorem bind [IsTrans World R] {f : α → RowAct σ β} (ha : Does R a) (hf : ∀ x, Does R (f x)) : Does R (a >>= f) := by
  intro s w
  have h := ha s w
  rw [run_bind]
  rcases hr : a.run (s, w) with ⟨e | x, s', w'⟩ <;> rw [hr] at h
  · exact h
  · exact trans_of R h (hf x s' w')

theorem tryCatch [IsTrans World R] {f : ClientError → RowAct σ α} (ha : Does R a) (hf : ∀ e, Does R (f e)) :
    Does R (MonadExcept.tryCatch a f) := by
  intro s w
  have h := ha s w
  rw [run_tryCatch]
  rcases hr : a.run (s, w) with ⟨e | x, s', w'⟩ <;> rw [hr] at h
  · exact trans_of R h (hf e s' w')
  · exact h

end Does
end RowAct

/-- A callback that only looks around with what the application holds. -/
def Browsing {σ : Type} (t : Terms) (held : Multiset Item) (callback : Resultset → RowAct σ Bool) : Prop :=
  ∀ rs, RowAct.Does (Browses t ({.resultset rs} + held)) (callback rs)

namespace Browsing
variable {σ : Type} {t : Terms} {held : Multiset Item} {callback : Resultset → RowAct σ Bool}

lemma lending (h : Browsing t held callback) : Lending t (fun _ => held) callback := fun rs s w => (h rs s w).runs

/-- It leaves the chain on offer, and the resultset open. -/
theorem sparedBy (h : Browsing t held callback) (stmt : Statement) : stmt.SparedBy t (fun _ => held) callback := by
  intro rs s w b s' w' chain taken _ hr ho hopen
  have hspares : w.Spares w' := by
    have hbrowses := (h rs s w).spares
    rwa [hr] at hbrowses
  have hlive : w'.Live = w.Live := by
    funext id n
    simp only [Live, hspares.nodes]
  refine ⟨ho.carry (fun _ _ => .of_nodes hspares.nodes) (fun _ _ _ _ => by rw [hspares.library.stmts])
    (fun _ _ => by rw [hspares.library.rsets]) ⟨hspares.library.resultset, hspares.library.fetch⟩, ?_⟩
  rw [Wrapper.isNull_eq_false, hlive]
  exact Wrapper.isNull_eq_false.mp hopen

end Browsing

/-! ### Scripts -/

namespace RowScript
variable {t : Terms} {held : Multiset Item} {w : World} {rs : Resultset}

/-- A script does not make the walk itself fail. -/
def Harmless (s : RowScript) : Prop := ∀ n op e, s.failure = some (n, op, e) → op ≠ .resultset ∧ op ≠ .fetch

lemma browses_readCells (hrs : .resultset rs ∈ held) (propagate : Bool) (columns : List (Nat × Request)) :
    Act.Does (Browses t held) (readCells rs propagate columns) w := by
  induction columns generalizing w with
  | nil => exact Act.Does.pure _
  | cons column rest ih =>
    obtain ⟨index, r⟩ := column
    refine Act.Does.seq (Act.Does.tryCatch ?_ fun e _ _ _ => ?_) fun _ _ _ => ih.seq fun _ _ _ => Act.Does.pure _
    · exact (Resultset.browses_get hrs index r).seq fun _ _ _ => Act.Does.pure _
    · split
      · exact Act.Does.throw _
      · exact Act.Does.pure _

lemma browses_answerRow {s : RowScript} (hs : s.Harmless) (ht : t.faults = true) (row : RowRecord) :
    RowAct.Does (Browses t held) (s.answerRow row) := by
  unfold answerRow
  refine (RowAct.Does.state _).bind fun call => ?_
  dsimp only
  split
  on_goal 1 =>
    rename_i n op e hfailure
    obtain ⟨hr, hf⟩ := hs n op e hfailure
    split
    on_goal 1 =>
      refine (RowAct.Does.ofAct fun w => ?_).bind fun _ => ?_
      · exact Browses.of_operation (.library (.failNext op e)) rfl (fun _ => ht) rfl
          (fun _ hi => absurd hi List.not_mem_nil) (Spares.ofLibrary (.failNext hr hf _))
  -- whether a failure has been injected or not, the row is answered in the same way
  all_goals split <;> first | exact .pure _ | exact .throw _

lemma browses_adapter (s : RowScript) (hrs : .resultset rs ∈ held) :
    RowAct.Does (Browses t held) (s.adapter rs) :=
  (RowAct.Does.ofAct fun _ => browses_readCells hrs s.propagate s.columns).bind fun _ => .pure _

/-- A scripted callback only looks at rows, -/
theorem browsing_callback {s : RowScript} (hs : s.Harmless) (ht : t.faults = true) : Browsing t held s.callback := by
  intro rs
  refine (RowAct.Does.tryCatch (s.browses_adapter (by simp)) fun e => ?_).bind fun _ => browses_answerRow hs ht _
  split
  · exact .throw _
  · exact .pure _

/-- and so does one that takes adapted rows. -/
theorem browsing_adapted {s : RowScript} (hs : s.Harmless) (ht : t.faults = true) :
    Browsing t held (Resultset.adapted s.adapter s.answerRow) := fun _ =>
  (s.browses_adapter (by simp)).bind fun _ => browses_answerRow hs ht _

end RowScript
end DbClient
