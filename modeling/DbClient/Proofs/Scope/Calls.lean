import DbClient.Proofs.Scope.Basic
import DbClient.Proofs.Forest.Stepwise

/-! The calls of an operation. Whatever an operation does, to the native library it makes calls and takes the last
error, and nothing else; so an error that one of its calls records can be told from any that was there before. -/
namespace DbClient
open World

namespace Library
variable {l l' l'' : Library} {e : NativeError} {op : Primitive}

/-- A primitive is called, or the last error is taken. -/
inductive Turn : Library → Library → Prop
  | call {l : Library} (i : Invocation) : Turn l (i.run l).2
  | forget {l : Library} : Turn l { l with error := none }

/-- Calls, one after the other, with the last error taken in between. -/
def Calls : Library → Library → Prop := Relation.ReflTransGen Turn

namespace Calls

@[refl] lemma refl (l : Library) : Calls l l := Relation.ReflTransGen.refl

lemma trans (h : Calls l l') (h' : Calls l' l'') : Calls l l'' := Relation.ReflTransGen.trans h h'

lemma call (i : Invocation) (l : Library) : Calls l (i.run l).2 := Relation.ReflTransGen.single (.call i)

lemma of_call (i : Invocation) (h : (i.run l).2 = l') : Calls l l' := h ▸ call i l

lemma forget (l : Library) : Calls l { l with error := none } := Relation.ReflTransGen.single .forget

/-- A failure that is pending after calls was so before them. -/
theorem failures (h : Calls l l') : l'.failures.get? op = some e → l.failures.get? op = some e := by
  induction h with
  | refl => exact id
  | tail _ h ih =>
    cases h with
    | call i => exact fun he => ih ((i.beside _).failures op e he)
    | forget => exact ih

end Calls

/-- An error is the one that a call recorded which was made between two states of the library. -/
def Blames (l l' : Library) (e : NativeError) : Prop :=
  ∃ m i, Calls l m ∧ Invocation.Records i m e ∧ Calls (i.run m).2 l'

namespace Blames

lemma earlier (h : Calls l l') (hb : Blames l' l'' e) : Blames l l'' e := by
  obtain ⟨m, i, hm, hr, hend⟩ := hb
  exact ⟨m, i, h.trans hm, hr, hend⟩

lemma later (hb : Blames l l' e) (h : Calls l' l'') : Blames l l'' e := by
  obtain ⟨m, i, hm, hr, hend⟩ := hb
  exact ⟨m, i, hm, hr, hend.trans h⟩

/-- The error of a call that has just failed. -/
lemma call {i : Invocation} (hr : i.Records l e) (h : Calls (i.run l).2 l') : Blames l l' e := ⟨l, i, .refl l, hr, h⟩

end Blames
/-- An error tells of a call between two states of the native library, which failed and left it, whatever the last error
had been before. Either the call was made to fail with it: this was asked for before, and is over now. Or it is an error
of the library's own, which says what is wrong with the call. -/
def Attributed (l l' : Library) (e : NativeError) : Prop :=
  ∃ m i, Calls l m ∧ Invocation.Records i m e ∧ Calls (i.run m).2 l' ∧
    ((∃ op, i.op? = some op ∧ m.failures.get? op = some e ∧ l.failures.get? op = some e ∧
      l'.failures.get? op = none) ∨ i.injected? m = none ∧ e.Own)

theorem Blames.attributed (h : Blames l l' e) : l.Attributed l' e := by
  obtain ⟨m, i, hm, hr, hm'⟩ := h
  refine ⟨m, i, hm, hr, hm', hr.cause.imp_left fun hf => ?_⟩
  obtain ⟨op, hop, hf⟩ := Option.bind_eq_some_iff.mp hf
  refine ⟨op, hop, hf, hm.failures hf, Option.eq_none_iff_forall_not_mem.mpr fun e' he' => ?_⟩
  have hgone : (i.run m).2.failures.get? op = none := by
    rw [Invocation.run_of_injected hop hf]
    exact (Assoc.get?_erase _ _ _).trans (if_pos rfl)
  exact absurd (hgone.symm.trans (hm'.failures he')) nofun

/-- An error without a known cause has been asked for. -/
lemma Attributed.known {code : Int} (h : l.Attributed l' (.unknown code)) :
    ∃ op, l.failures.get? op = some (.unknown code) := by
  obtain ⟨m, i, -, -, -, ⟨op, -, -, hf, -⟩ | ⟨-, hown⟩⟩ := h
  · exact ⟨op, hf⟩
  · obtain hown | ⟨_, _, hown⟩ := hown <;> cases hown

end Library

open Library
variable {S : Scope} {w w' : World} {id : Nat} {n : Node} {text : Prop}

/-- The calls between two worlds. -/
def World.Calls (w w' : World) : Prop := Library.Calls w.library w'.library

namespace World.Calls

lemma of_eq (h : w'.library = w.library) : World.Calls w w' := by
  unfold World.Calls
  rw [h]

instance : Std.Refl World.Calls := ⟨fun w => Library.Calls.refl w.library⟩

instance : IsTrans World World.Calls := ⟨fun _ _ _ => Library.Calls.trans⟩

/-- A release makes calls that destroy handles, and takes their errors. -/
lemma releasing : Releasing World.Calls where
  mark _ _ := of_eq rfl
  cut _ _ := of_eq rfl
  parent id w := of_eq (by rw [leaveParent_eq]; split <;> rfl)
  store id w := of_eq (by
    unfold leaveStore
    split
    · rfl
    · split <;> rfl)
  action id w := of_eq (by
    unfold runReleaseAction performAction
    split
    · rfl
    · dsimp only
      split
      · split <;> rfl
      · split <;> split <;> rfl
      · split <;> split <;> rfl
      · split <;> rfl)
  native id w := by
    unfold leaveNative
    split
    · exact of_eq rfl
    · rename_i n _
      split
      · have hcall : Library.Calls w.library (w.library.destroy n.kind n.native).2 :=
          .call (.destroy n.kind n.native) w.library
        dsimp only [trace]
        rcases hd : w.library.destroy n.kind n.native with ⟨_ | _, l⟩ <;> rw [hd] at hcall
        · exact hcall.trans (.forget l)
        · exact hcall
      · exact of_eq rfl

end World.Calls

/-- Work on a node makes one call at most. -/
lemma Work.calls (h : Work text id n w w') : Library.Calls w.library w'.library := by
  cases h with
  | call i hi hs => exact .call i w.library
  | resize hx hc hz => exact .of_call (.setAttr n.native .bindArraySize _) (congrArg Prod.snd hc)
  | turn hx hc => exact .of_call (.setAttr n.native .fetchMode _) (congrArg Prod.snd hc)
  | mark hx hc => exact .of_call (.setAttr n.native .fetchMode _) (congrArg Prod.snd hc)
  | renew hx hr hp => exact .of_call (.prepare n.native _ _) (congrArg Prod.snd hp)
  | bind hx hs hn hb hv => exact .of_call (.bind n.native _) (congrArg Prod.snd hb)
  | execute hx hs hr he => exact .of_call (.execute n.native _ _) (congrArg Prod.snd he)
  | fill => exact .refl _
  | scratch => exact .refl _
  | keep => exact .refl _
  | tune => exact .refl _
  | close => exact .refl _

/-- To the native library a step makes calls. -/
theorem StepWithin.calls (h : StepWithin S w w') : World.Calls w w' := by
  cases h with
  | forget => exact Library.Calls.forget w.library
  | look hl i hi hr hs => exact Library.Calls.call i w.library
  | refuse hs => exact Library.Calls.call _ w.library
  | drop hc hn => exact World.Calls.releasing.drop (fun _ _ => .of_eq rfl) _ w
  | release hn hl => exact World.Calls.releasing.release _ w
  | @adopt node l hc hl hf hh ho hx =>
    unfold World.Calls
    rw [library_grow]
    exact .of_call (.create node.kind (w.nativeOf node.parent)) (congrArg Prod.snd hl)
  | @begin node l hc hk hl hf hh ho hx =>
    change Library.Calls w.library (World.grow node { w with library := l }).library
    rw [library_grow]
    exact .of_call (.create node.kind (w.nativeOf node.parent)) (congrArg Prod.snd hl)
  | lend => exact .of_eq (library_grow _ w)
  | work hn hl h => exact h.calls
  | _ => exact .of_eq rfl

theorem StepsWithin.calls (h : StepsWithin S w w') : World.Calls w w' := by
  induction h with
  | refl => exact Library.Calls.refl _
  | tail _ h ih => exact Library.Calls.trans ih h.calls

end DbClient
