import DbClient.Proofs.Application.TransferLaw
import DbClient.Proofs.Transfer.Twins

/-! The law of twins. A single value and a vector that holds it alone can be bound in place of each other: the native
library is told the same, and whatever is exchanged afterwards comes to the same bytes and to the same values. -/
namespace DbClient
open Act World

/-- A buffer can be as long as it is described. -/
def BindDesc.Fits (desc : BindDesc) : Prop := desc.elemSize ≤ BindIndex.maxSize ∧ desc.length ≤ BindPlan.maxLength

instance (desc : BindDesc) : Decidable desc.Fits := inferInstanceAs (Decidable (_ ∧ _))

namespace Statement
variable {w v : World} {s : Statement} {d : StatementData} {ty : ValueType} {index : BindIndex}
  {desc desc' : StatementData → String → Nat → BindDesc}

/-- A bind as far as the native library is told of it: that of a buffer with a description. Gives the data, the name
and the buffer. -/
def announce (s : Statement) (index : BindIndex) (ty : ValueType)
    (desc : StatementData → String → Nat → BindDesc) : Act (StatementData × String × Nat) := do
  let stmt ← s.handle.live
  let name ← Act.ofExcept index.toName
  let d ← s.data
  requireStatus d .prepared "bind"
  let w ← get
  match bindObstacle? d (w.bindLimit s.env) name ty with
  | some e => throw e
  | none =>
    if (desc d name 0).Fits then
      let buffer ← modifyGet (World.allocate (desc d name 0).length)
      Act.undoing (World.freeBuffers [buffer]) <|
        Act.require (fun e => (e.withSql d.sql).withBind name) (Library.bind stmt (desc d name buffer))
      Act.note (.bound stmt name (desc d name 0).ty (desc d name 0).direction)
      pure (d, name, buffer)
    else throw .overflow

/-- The statement keeps an object that the native library has been told of. -/
def keep (s : Statement) (d : StatementData) (o : BindObject) (w : World) : World :=
  (s.putData (d.bound o) w).freeBuffers ((d.binds.add o d.allowRebinding).1.map BindObject.buffer).toList

lemma bindPlanned_eq (s : Statement) (index : BindIndex) (ty : ValueType)
    (plan : StatementData → String → BindPlan) : s.bindPlanned index ty plan = (do
      let (d, name, buffer) ← s.announce index ty fun d name => (plan d name).desc
      Act.update (s.keep d { plan d name with buffer := buffer })) := by
  unfold bindPlanned announce
  simp only [bind_assoc]
  refine bind_congr fun stmt => bind_congr fun name => bind_congr fun d => bind_congr fun _ => bind_congr fun w => ?_
  change (match bindObstacle? d (w.bindLimit s.env) name ty with
    | some e => _
    | none => _) = _
  cases bindObstacle? d (w.bindLimit s.env) name ty with
  | some e => rfl
  | none =>
    have hplace : (modifyGet (BindObject.place (plan d name)) : Act BindObject) = (do
        let buffer ← modifyGet (World.allocate ((plan d name).desc 0).length)
        pure { plan d name with buffer := buffer }) := rfl
    by_cases hfit : (plan d name).Fits
    · have hdesc : ((plan d name).desc 0).Fits := hfit
      simp only [BindObject.make, if_pos hfit, if_pos hdesc, hplace, bind_assoc, pure_bind]
      exact bind_congr fun buffer => bind_congr fun _ => bind_congr fun _ => rfl
    · have hdesc : ¬((plan d name).desc 0).Fits := hfit
      simp only [BindObject.make, if_neg hfit, if_neg hdesc]
      rfl

/-- Descriptions that are the same for the data at hand are announced alike. -/
lemma announce_congr (hd : s.data? w = some d) (h : ∀ name, desc d name = desc' d name) :
    (s.announce index ty desc).run w = (s.announce index ty desc').run w := by
  refine run_bind_congr rfl fun stmt u hlive => ?_
  obtain ⟨rfl, -⟩ := ok_of_live hlive
  refine run_bind_congr rfl fun name u hname => ?_
  rw [run_ofExcept] at hname
  obtain ⟨-, rfl⟩ := Prod.mk.inj hname
  refine run_bind_congr rfl fun c u hdata => ?_
  obtain ⟨rfl, hc⟩ := ok_of_data hdata
  obtain rfl := Option.some.inj (hd.symm.trans hc)
  rw [h name]

/-- What there is when a bind has been announced. -/
structure Announced (s : Statement) (desc : StatementData → String → Nat → BindDesc) (ty : ValueType) (w : World)
    (d : StatementData) (name : String) (buffer : Nat) (v : World) : Prop where
  data : s.data? w = some d
  free : bindObstacle? d (w.bindLimit s.env) name ty = none
  buffer : buffer = w.memory.next
  memory : v.memory = w.memory.add (List.replicate (desc d name 0).length 0)
  nodes : v.nodes = w.nodes
  vars : v.vars = w.vars

lemma ok_of_announce {name : String} {buffer : Nat}
    (h : (s.announce index ty desc).run w = (.ok (d, name, buffer), v)) : s.Announced desc ty w d name buffer v := by
  obtain ⟨stmt, u, hlive, hnamed⟩ := ok_of_bind h
  obtain ⟨rfl, -⟩ := ok_of_live hlive
  obtain ⟨name', u, hname, hfilled⟩ := ok_of_bind hnamed
  rw [run_ofExcept] at hname
  obtain ⟨-, rfl⟩ := Prod.mk.inj hname
  obtain ⟨c, u, hdata, hready⟩ := ok_of_bind hfilled
  obtain ⟨rfl, hc⟩ := ok_of_data hdata
  obtain ⟨_, u, hstatus, hfree⟩ := ok_of_bind hready
  obtain ⟨rfl, -⟩ := ok_of_requireStatus hstatus
  rw [run_get_bind] at hfree
  split at hfree
  · cases hfree
  · rename_i hnone
    split at hfree
    case isFalse => cases hfree
    obtain ⟨b, u, halloc, htold⟩ := ok_of_bind hfree
    obtain ⟨hb, rfl⟩ := Prod.mk.inj halloc
    obtain ⟨_, u, hbind, hnote⟩ := ok_of_bind htold
    obtain ⟨l, -, rfl⟩ := ok_of_require (ok_of_undoing hbind)
    obtain ⟨hr, rfl⟩ := Prod.mk.inj hnote
    obtain ⟨rfl, hr'⟩ := Prod.mk.inj (Except.ok.inj hr)
    obtain ⟨rfl, rfl⟩ := Prod.mk.inj hr'
    exact ⟨hc, hnone, (Except.ok.inj hb).symm, rfl, rfl, rfl⟩

/-- To keep an object touches the data of the statement, and the buffer of the object that gives way. -/
lemma fields_keep (hd : s.data? w = some d) (hn : v.nodes = w.nodes) (o : BindObject) :
    s.data? (s.keep d o v) = some (d.bound o) ∧ (s.keep d o v).vars = v.vars ∧
      (s.keep d o v).library = v.library ∧ (s.keep d o v).memory =
        ((d.binds.add o d.allowRebinding).1.map BindObject.buffer).toList.foldl Table.erase v.memory := by
  obtain ⟨id, n, hid, hl, hx⟩ := data?_eq_some.mp hd
  have hlv : v.Live id n := ⟨hn ▸ hl.1, hl.2⟩
  unfold keep
  rw [putData_of_live hid hlv]
  exact ⟨data?_eq_some.mpr ⟨id, _, hid, hlv.keeping _, rfl⟩, rfl, rfl, rfl⟩

end Statement

namespace BindsHolder
variable {h : BindsHolder} {o o' : BindObject} {allow : Bool}

/-- Which object gives way is a matter of the name alone. -/
lemma replaced_congr (h : BindsHolder) (allow : Bool) (hn : o.name = o'.name) :
    (h.add o allow).1 = (h.add o' allow).1 := by
  unfold add
  rw [hn]
  split <;> rfl

end BindsHolder

/-- A single value and a vector of it alone have been bound, with the outcomes given, or neither of them, for the same
reason. -/
structure BoundAlike (s : Statement) (d : StatementData) (ty : ValueType) (x : Host ty)
    (one other : Except ClientError Unit × World) : Prop where
  result : one.1 = other.1
  /-- The native library has been told the same. -/
  library : one.2.library = other.2.library
  memory : one.2.memory = other.2.memory
  /-- The objects that have been bound stand in the same place of their statement. Their descriptions have the same
  element size, element count and table length, and both have the same buffer. -/
  objects : one.1 = .ok () → ∃ o o' size, s.data? one.2 = some (d.bound o) ∧ s.data? other.2 = some (d.bound o') ∧
    o.desc = o'.desc ∧ BindObject.Mirrored ty size o o' x one.2 other.2

namespace Statement
variable {w : World} {s : Statement} {d : StatementData}

/-- Twins that a statement keeps after they were announced have the same whole buffer. -/
lemma mirrored_keep {v : World} {desc : StatementData → String → Nat → BindDesc} {ty : ValueType} {size : Nat}
    {x : Host ty} {o o' : BindObject} (hw : Bindings w) (ht : BindPlan.Twins ty size o.toBindPlan o'.toBindPlan)
    (hb : o.buffer = o'.buffer) (ha : s.Announced desc ty w d o.name o.buffer v)
    (hdesc : desc d o.name = o.toBindPlan.desc) (hi : w.vars.get? o.var = some (.single ty x))
    (hj : w.vars.get? o'.var = some (.vector ty [x])) :
    BindObject.Mirrored ty size o o' x (s.keep d o v) (s.keep d o' v) := by
  obtain ⟨id, n, hid, hl, hx⟩ := data?_eq_some.mp ha.data
  obtain ⟨-, hvars, hlibrary, hmemory⟩ := fields_keep ha.data ha.nodes o
  obtain ⟨-, hvars', hlibrary', hmemory'⟩ := fields_keep ha.data ha.nodes o'
  have hgone := d.binds.replaced_congr d.allowRebinding ht.name
  have hnext : o = { o.toBindPlan with buffer := w.memory.next } := by rw [← ha.buffer]
  have hstocked := (hw.stocked id n d ⟨hl, hx⟩).add hw.memory hnext (allowed_of_no_obstacle ha.free)
  have hthere := hstocked.there o BindsHolder.self_mem_add
  have hlength : (o.toBindPlan.desc 0).length = o.elemSize * o.elemCount := rfl
  have hdeclared : o.desc.length = ty.stride size := by
    change o.elemSize * o.elemCount = ty.stride size
    rw [ht.elemSize_single, ht.counts_single.1, Nat.mul_one]
  rw [← hlength, ← hdesc, ← ha.memory, ← hmemory, hdeclared] at hthere
  obtain ⟨bytes, hbytes, hwhole⟩ := Option.map_eq_some_iff.mp hthere
  exact {
    twins := ht
    shared := hb
    whole := by rw [bufferBytes, hbytes, Option.getD_some, hwhole]
    library := hlibrary.trans hlibrary'.symm
    memory := by rw [hmemory, hmemory', hgone]
    single := by rw [hvars, ha.vars, hi]
    vector := by rw [hvars', ha.vars, hj] }

/-- A single value and a vector of it alone are bound alike. -/
theorem bind_twins (hw : Bindings w) (hd : s.data? w = some d) (hone : max d.arraySize d.initialArraySize = 1)
    {ty : ValueType} {x : Host ty} {i j : Nat} (hi : w.vars.get? i = some (.single ty x))
    (hj : w.vars.get? j = some (.vector ty [x])) (index : BindIndex) (direction : Direction) (kind : VectorKind)
    (size : Nat) : BoundAlike s d ty x ((s.bind index i direction kind size).run w)
      ((s.bind index j direction .regular size).run w) := by
  have htwins := fun name => BindPlan.twins_of_value name i j direction size ty x
  have hsingle : (s.bind index i direction kind size).run w = (s.bindPlanned index ty fun _ name =>
      .single name i direction size ty x).run w := by
    rw [Statement.bind, run_get_bind, hi]
    rfl
  have hvector : (s.bind index j direction .regular size).run w = (s.bindPlanned index ty fun d name =>
      .vector name j direction .regular size (max d.arraySize d.initialArraySize) ty [x]).run w := by
    rw [Statement.bind, run_get_bind, hj]
    rfl
  have hsame : (s.announce index ty fun _ name => (BindPlan.single name i direction size ty x).desc).run w =
      (s.announce index ty fun d name => (BindPlan.vector name j direction .regular size
        (max d.arraySize d.initialArraySize) ty [x]).desc).run w :=
    announce_congr hd fun name => by rw [hone, funext (htwins name).desc]
  rw [hsingle, hvector, bindPlanned_eq, bindPlanned_eq, run_bind, run_bind, ← hsame]
  rcases hr : (s.announce index ty fun _ name => (BindPlan.single name i direction size ty x).desc).run w with
    ⟨e | ⟨c, name, buffer⟩, v⟩
  · exact ⟨rfl, rfl, rfl, fun h => by cases h⟩
  · have ha := ok_of_announce hr
    obtain rfl := Option.some.inj (hd.symm.trans ha.data)
    have hm : BindObject.Mirrored ty _ ⟨.single name i direction size ty x, buffer⟩
        ⟨.vector name j direction .regular size 1 ty [x], buffer⟩ x _ _ :=
      mirrored_keep hw (htwins name) rfl ha rfl hi hj
    dsimp only
    rw [run_update, run_update, hone]
    exact ⟨rfl, hm.library, hm.memory, fun _ => ⟨_, _, _, (fields_keep hd ha.nodes _).1, (fields_keep hd ha.nodes _).1,
      (htwins name).desc buffer, hm⟩⟩

end Statement

namespace Application

/-- Single values and vectors of one element stand for each other. -/
structure TwinLaw (a : Application) : Prop where
  /-- Bound to a statement whose array has one element, and in place of each other, they are described alike to the
  native library, whatever type, direction and size they have. -/
  bound : ∀ s d index i j direction kind size ty x, s.data? a.world = some d →
    max d.arraySize d.initialArraySize = 1 → a.world.vars.get? i = some (.single ty x) →
    a.world.vars.get? j = some (.vector ty [x]) →
    BoundAlike s d ty x ((s.bind index i direction kind size).run a.world)
      ((s.bind index j direction .regular size).run a.world)
  /-- No size is too large for the one and not for the other: both binds overflow, or neither does. -/
  fits : ∀ name i j direction size ty (x : Host ty), (BindPlan.single name i direction size ty x).Fits ↔
    (BindPlan.vector name j direction .regular size 1 ty [x]).Fits
  /-- Whatever is assigned, pushed, pulled or done by the native library then, all of it gives the same results: the
  library and with it the actual lengths, all bytes, and the values of the variables are the same on both sides. -/
  exchanged : ∀ ty size o o' x w w' stmt steps, BindObject.Mirrored ty size o o' x w w' →
    (o.history (.single ty) stmt steps w).1 = (o'.history (fun y => .vector ty [y]) stmt steps w').1 ∧
      ∃ y, BindObject.Mirrored ty size o o' y (o.history (.single ty) stmt steps w).2
        (o'.history (fun y => .vector ty [y]) stmt steps w').2

theorem Reachable.twinLaw {a : Application} (h : Reachable ⟨false, true⟩ a) : TwinLaw a where
  bound _ _ index _ _ direction kind size _ _ hd hone hi hj :=
    Statement.bind_twins (h.bindings rfl) hd hone hi hj index direction kind size
  fits name i j direction size ty x := by
    have hdesc := (BindPlan.twins_of_value name i j direction size ty x).desc 0
    exact (congrArg BindDesc.Fits hdesc).to_iff
  exchanged _ _ _ _ _ _ _ stmt steps hm := hm.history stmt steps

/-- A text of six letters is bound with room for five bytes, as it is and in a vector. Two letters go in, and what the
hook leaves in their place is no text for either. -/
theorem twinLaw_with_cut_text :
    let s : Statement := ⟨0, ⟨0, ⟨some 1⟩⟩, ⟨some 2⟩⟩
    let a := play [.createEnvironment default,
      .environment ⟨0, ⟨some 0⟩⟩ (.connect (.ofPassword "db" "user" "word")), .connection ⟨0, ⟨some 1⟩⟩ (.prepare "q"),
      .newVar (.single .string "привет"), .newVar (.vector .string ["привет"]),
      .library (.onExecute "q" [.writeBytes "x" 1 [0xff]])] start
    let one := (s.bind (.name "x") 0 .both .regular 5).run a.world
    let other := (s.bind (.name "x") 1 .both .regular 5).run a.world
    TwinLaw a ∧ one.1 = .ok () ∧ other.1 = .ok () ∧
      (s.executePrepared.run one.2).1 = .error (.conversion .string) ∧
      (s.executePrepared.run other.2).1 = .error (.conversion .string) ∧
      (s.executePrepared.run one.2).2.library.executions.map Execution.binds = [[("x", [[0xD0, 0xBF, 0xD1, 0x80]])]] ∧
      (s.executePrepared.run other.2).2.library.executions.map Execution.binds =
        [[("x", [[0xD0, 0xBF, 0xD1, 0x80]])]] := by
  refine ⟨Reachable.twinLaw (runs_play ?_), by decide +kernel, by decide +kernel, by decide +kernel,
    by decide +kernel, by decide +kernel, by decide +kernel⟩
  exact ⟨trivial, by decide +kernel, trivial, by decide +kernel, trivial, by decide +kernel, trivial,
    by decide +kernel, trivial, by decide +kernel, trivial, by decide +kernel, trivial⟩

end Application
end DbClient
