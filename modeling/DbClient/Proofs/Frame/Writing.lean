import DbClient.Proofs.Scope.Attributes
import DbClient.Proofs.Outcomes

/-! Attributes that are written to the handle of a connection one after the other, to any native library. The library
may refuse one of them at any time, and a value may not fit into a word; those before it stay written, and those behind
it are not tried. -/
namespace DbClient
open Act World

/-- Nothing but the native library has changed. -/
def World.AtLibrary (w w' : World) : Prop := w' = { w with library := w'.library }

instance : Std.Refl World.AtLibrary := ⟨fun _ => rfl⟩

instance : IsTrans World World.AtLibrary := ⟨fun _ _ _ (h : _ = _) (h' : _ = _) => by
  rw [AtLibrary, h', h]⟩

namespace Library

/-- How a native library writes an attribute of a handle. -/
abbrev AttrWriter : Type := Address → Attr → Value → Library → Option Unit × Library

/-- What a native library writes is what it is given, under its attribute only; what it refuses it does not write. No
handle comes or goes by that. -/
structure AttrWriter.Faithful (write : AttrWriter) : Prop where
  written : ∀ {h attr v l x l'}, write h attr v l = (some x, l') → ∀ b other,
    l'.attr? b other = if (h, attr) = (b, other) then some v else l.attr? b other
  refused : ∀ {h attr v l l'}, write h attr v l = (none, l') → ∀ b other, l'.attr? b other = l.attr? b other
  quiet : ∀ {known : Address → Prop} {h}, known h → ∀ attr v l, Quiet known l (write h attr v l).2

/-- The scripted library is faithful, whatever failures are injected. -/
lemma faithful_setAttr : AttrWriter.Faithful setAttr where
  written hc b other := attr?_setAttr hc b other
  refused {h attr v l l'} hc b other := by
    have hnone : (setAttr h attr v l).1.isSome = false := by rw [hc]; rfl
    have hkept := attr?_setAttr_of_none hnone b other
    rwa [hc] at hkept
  quiet hk attr v l := .setAttr hk attr v l

/-- These attributes of a handle have been written, and no others. -/
structure Wrote (h : Address) (ps : List (Attr × Value)) (l l' : Library) : Prop where
  given : ∀ attr v, (attr, v) ∈ ps → l'.attr? h attr = some v
  others : ∀ b attr, (b = h → attr ∉ ps.map Prod.fst) → l'.attr? b attr = l.attr? b attr

namespace Wrote
variable {write : AttrWriter} {h : Address} {ps : List (Attr × Value)} {attr : Attr} {v : Value} {l m l' : Library}

lemma nil (hl : l'.attrs = l.attrs) : Wrote h [] l l' :=
  ⟨fun _ _ hin => absurd hin List.not_mem_nil, fun b attr _ => congrArg (fun as => as.get? (b, attr)) hl⟩

/-- Another attribute is written after them. -/
lemma snoc (hw : Wrote h ps l m) (hf : write.Faithful) (hnew : attr ∉ ps.map Prod.fst) {x : Unit}
    (hc : write h attr v m = (some x, l')) : Wrote h (ps ++ [(attr, v)]) l l' := by
  have hattr := hf.written hc
  refine ⟨fun other u hu => ?_, fun b other hother => ?_⟩
  · rw [hattr]
    rcases List.mem_append.mp hu with hold | hlast
    · have hne : (h, attr) ≠ (h, other) := fun he =>
        hnew ((Prod.mk.inj he).2 ▸ List.mem_map_of_mem (f := Prod.fst) hold)
      rw [if_neg hne]
      exact hw.given other u hold
    · obtain ⟨rfl, rfl⟩ := Prod.mk.inj (List.mem_singleton.mp hlast)
      exact if_pos rfl
  · have hfree : b = h → other ∉ ps.map Prod.fst ∧ other ≠ attr := fun hb => by simpa using hother hb
    have hne : (h, attr) ≠ (b, other) := fun he =>
      (hfree (Prod.mk.inj he).1.symm).2 (Prod.mk.inj he).2.symm
    rw [hattr, if_neg hne]
    exact hw.others b other fun hb => (hfree hb).1

/-- Another attribute is refused after them, and the error is taken. -/
lemma refused (hw : Wrote h ps l m) (hf : write.Faithful) (hc : write h attr v m = (none, l')) :
    Wrote h ps l l'.lastError.2 :=
  ⟨fun other u hu => (hf.refused hc h other).trans (hw.given other u hu),
    fun b other hother => (hf.refused hc b other).trans (hw.others b other hother)⟩

end Wrote

/-- Attributes whose values fit into words. -/
def fitting (ps : List (Attr × Value)) : List (Attr × Option Value) := ps.map fun p => (p.1, some p.2)

lemma map_fst_fitting (ps : List (Attr × Value)) : (fitting ps).map Prod.fst = ps.map Prod.fst := by
  rw [fitting, List.map_map]
  rfl

lemma mem_fitting {ps : List (Attr × Value)} {attr : Attr} {value : Option Value} :
    (attr, value) ∈ fitting ps ↔ ∃ v, (attr, v) ∈ ps ∧ value = some v := by
  simp [fitting, eq_comm]

/-- How the writing of attributes ends: all of them are written, or one is refused, or the value of one does not fit
into a word. Before that one all are written, and behind it none is. When one is refused, the error is that of the
library, with the handle. -/
inductive Written (write : AttrWriter) (h : Address) (ps : List (Attr × Option Value)) (l : Library) :
    Except ClientError Unit → Library → Prop where
  | all {done l'} (hps : ps = fitting done) (hw : Wrote h done l l') : Written write h ps l (.ok ()) l'
  | upTo {before attr v behind m m'} (hps : ps = fitting before ++ (attr, some v) :: behind) (hm : Wrote h before l m)
      (hc : write h attr v m = (none, m')) (hw : Wrote h before l m'.lastError.2) :
      Written write h ps l (.error (.native m'.lastError.1 ⟨none, none, none, some h.number⟩)) m'.lastError.2
  | overflow {before attr behind l'} (hps : ps = fitting before ++ (attr, none) :: behind) (hw : Wrote h before l l') :
      Written write h ps l (.error .overflow) l'

end Library

namespace Connection
open Library
variable {w : World} {c : Connection} {id : Nat} {n : Node} {write : AttrWriter}

/-- Writes attributes to the handle of a connection; those without a value would not fit into a word. -/
def writeAll (write : AttrWriter) (c : Connection) : List (Attr × Option Value) → Act Unit
  | [] => pure ()
  | (attr, value) :: rest => do
    let v ← Act.checked value
    let h ← c.handle.live
    Act.require (ClientError.withHandle h) (write h attr v)
    c.writeAll write rest

lemma atLibrary_writeAll (write : AttrWriter) (c : Connection) (ps : List (Attr × Option Value)) :
    Does AtLibrary (c.writeAll write ps) w := by
  induction ps generalizing w with
  | nil => exact Does.pure _
  | cons p rest ih =>
    exact (Does.checked _).seq fun _ _ _ =>
      Does.live fun _ _ _ _ => (Does.require rfl fun _ => rfl).seq fun _ _ _ => ih

lemma quiet_writeAll (hf : write.Faithful) (c : Connection) (ps : List (Attr × Option Value)) :
    Does Quiet (c.writeAll write ps) w := by
  induction ps generalizing w with
  | nil => exact Does.pure _
  | cons p rest ih =>
    exact (Does.checked _).seq fun v _ _ =>
      Does.live fun id n _ hl => (Quiet.require fun l => hf.quiet ⟨id, n, hl, rfl⟩ p.1 v l).seq fun _ _ _ => ih

/-- The rule for the rest of attributes that are written. -/
lemma ends_writeAll_from (hf : write.Faithful) (hid : c.handle.node = some id) (hl : w.Live id n) {l : Library}
    (before : List (Attr × Value)) {rest : List (Attr × Option Value)}
    (hn : ((fitting before ++ rest).map Prod.fst).Nodup) (hw : Wrote n.native before l w.library) :
    Ends (c.writeAll write rest) w fun r w' => Written write n.native (fitting before ++ rest) l r w'.library := by
  induction rest generalizing w before with
  | nil =>
    rw [List.append_nil]
    exact .all rfl hw
  | cons p rest ih =>
    obtain ⟨attr, value⟩ := p
    have hnew : attr ∉ before.map Prod.fst := fun hin => by
      rw [List.map_append, map_fst_fitting] at hn
      exact (List.nodup_append.mp hn).2.2 _ hin _ List.mem_cons_self rfl
    refine Ends.checked (fun v hv => ?_) fun hnone => ?_
    · subst hv
      refine Ends.liveOf hid hl (Ends.require (fun x m hc => ?_) fun m hc => ?_)
      · have hsnoc := hw.snoc hf hnew hc
        have hsplit : fitting before ++ (attr, some v) :: rest = fitting (before ++ [(attr, v)]) ++ rest := by
          simp [fitting]
        rw [hsplit] at hn ⊢
        exact ih (w := { w with library := m }) hl _ hn hsnoc
      · exact .upTo rfl hw hc (hw.refused hf hc)
    · subst hnone
      exact .overflow rfl hw

/-- Attributes are written to a live connection up to the first that is refused or does not fit. -/
theorem ends_writeAll (hf : write.Faithful) (hid : c.handle.node = some id) (hl : w.Live id n)
    {ps : List (Attr × Option Value)} (hn : (ps.map Prod.fst).Nodup) {l : Library}
    (hattrs : w.library.attrs = l.attrs) :
    Ends (c.writeAll write ps) w fun r w' => Written write n.native ps l r w'.library :=
  ends_writeAll_from hf hid hl [] hn (.nil hattrs)

end Connection

/-! ### What the client writes -/

/-- The attributes of timeouts that are given, in the order in which they are written. -/
def Timeouts.values (t : Timeouts) : List (Attr × Option Value) :=
  t.toList.filterMap fun p => p.2.map fun d => (p.1, d.millis?.map (Value.int .uint64))

def Credentials.values : Credentials → List (Attr × Option Value)
  | password user word => [(.username, some (.string user)), (.password, some (.string word))]
  | external => [(.externalAuth, some (.bool true))]

/-- The attributes of a new connection. -/
def ConnectParams.values (p : ConnectParams) : List (Attr × Option Value) :=
  (.dbLink, some (.string p.dblink)) :: (p.credentials.values ++ p.timeouts.values)

namespace Connection

lemma writeAll_none (c : Connection) (attr : Attr) (rest : List (Attr × Option Value)) :
    c.writeAll Library.setAttr ((attr, none) :: rest) = throw .overflow := rfl

lemma writeAll_some (c : Connection) (attr : Attr) (v : Value) (rest : List (Attr × Option Value)) :
    c.writeAll Library.setAttr ((attr, some v) :: rest) =
      (c.setAttr attr v >>= fun _ => c.writeAll Library.setAttr rest) := by
  rw [setAttr, bind_assoc]
  rfl

lemma setTimeoutList_eq (c : Connection) (ts : List (Attr × Option Duration)) : c.setTimeoutList ts =
    c.writeAll Library.setAttr
      (ts.filterMap fun p => p.2.map fun d => (p.1, d.millis?.map (Value.int .uint64))) := by
  induction ts with
  | nil => rfl
  | cons p rest ih =>
    obtain ⟨attr, _ | d⟩ := p
    · exact ih
    · rw [setTimeoutList_some, ih, List.filterMap_cons]
      dsimp only [Option.map_some]
      cases d.millis? with
      | none => exact (c.writeAll_none _ _).symm
      | some n => exact (c.writeAll_some _ _ _).symm

/-- Timeouts are set as attributes that are written one after the other. -/
lemma setTimeouts_eq (c : Connection) (t : Timeouts) : c.setTimeouts t = c.writeAll Library.setAttr t.values :=
  c.setTimeoutList_eq t.toList

/-- What is set up in a new connection. -/
def setUp (params : ConnectParams) (c : Connection) : Act Unit := do
  c.setAttr .dbLink (.string params.dblink)
  c.setCredentials params.credentials
  c.setTimeouts params.timeouts

/-- This is set up in the same way. -/
lemma setUp_eq (params : ConnectParams) (c : Connection) :
    setUp params c = c.writeAll Library.setAttr params.values := by
  obtain ⟨dblink, _ | _, timeouts⟩ := params <;>
  simp only [setUp, ConnectParams.values, Credentials.values, setCredentials, setTimeouts_eq, List.cons_append,
    List.nil_append, writeAll_some, bind_assoc]

end Connection
end DbClient
