import DbClient.Proofs.Bindings.Moves

/-! What all data of statements have in common. A property that new data have, and that each change of data
keeps, is a property of all data along all moves of a client that wraps no handle itself. -/
namespace DbClient

namespace BindsHolder
variable {h : BindsHolder} {o p : BindObject} {allow : Bool}

lemma takeNamed_sublist (name : String) (os : List BindObject) : (takeNamed name os).2.Sublist os := by
  induction os with
  | nil => exact List.Sublist.refl _
  | cons q rest ih =>
    by_cases hq : q.name = name
    · simp [takeNamed, hq]
    · simpa [takeNamed, hq] using ih

/-- Nothing comes to a holder but the object that is added. -/
lemma mem_add (hp : p ∈ (h.add o allow).2.objects) : p ∈ h.objects ∨ p = o := by
  cases allow with
  | true =>
    rcases List.mem_append.mp hp with hp | hp
    · exact .inl ((takeNamed_sublist _ _).mem hp)
    · exact .inr (List.mem_singleton.mp hp)
  | false => simpa [add] using hp

lemma add_ne_nil : (h.add o allow).2.objects ≠ [] := by
  cases allow <;> simp [add]

end BindsHolder

/-- A property of the data of statements that new data have and that all changes keep. -/
structure StatementData.Lasting (P : StatementData → Prop) : Prop where
  fresh : P .fresh
  reset : ∀ (d : StatementData) sql status, P { d.reset sql with status := status }
  tune : ∀ d d', P d → d'.binds = d.binds → d.Resized d' →
    (Status.prepared.rank ≤ d'.status.rank ↔ Status.prepared.rank ≤ d.status.rank) → P d'
  bind : ∀ (d : StatementData) (o : BindObject) w, P d → o.MadeFor d w → o.Fits → Status.prepared.rank ≤ d.status.rank →
    P { d with binds := (d.binds.add o d.allowRebinding).2 }

/-- A property of all objects lasts if a new object has it. -/
lemma StatementData.Lasting.of_objects {P : BindObject → Prop}
    (hP : ∀ (d : StatementData) (o : BindObject) w, o.MadeFor d w → o.Fits → P o) :
    Lasting fun d => ∀ o ∈ d.binds.objects, P o where
  fresh := nofun
  reset _ _ _ := nofun
  tune _ _ h hb _ _ := hb ▸ h
  bind d o w h hm hfit _ := fun p hp => by
    rcases BindsHolder.mem_add hp with hp | rfl
    · exact h p hp
    · exact hP d p w hm hfit

/-- All data of live statements have a property. -/
def World.AllData (P : StatementData → Prop) (w : World) : Prop := ∀ i n d, w.HasData i n d → P d

namespace World.AllData
open World
variable {P : StatementData → Prop} {w w' : World} {id : Nat} {n node : Node} {e : Option Extra}

/-- No node comes to keep other data. -/
lemma carry (hw : w.AllData P) (back : ∀ i n d, w'.HasData i n d → ∃ m, w.HasData i m d) : w'.AllData P := by
  intro i n d hd
  obtain ⟨m, hm⟩ := back i n d hd
  exact hw i m d hm

lemma modifyNode (hw : w.AllData P) {f : Node → Node}
    (hf : ∀ n, (f n).extra = n.extra ∧ (f n).released = n.released) (id : Nat) : (w.modifyNode id f).AllData P := by
  refine hw.carry fun i n d hd => ?_
  obtain ⟨⟨hn, hr⟩, hx⟩ := hd
  rw [nodes_modifyNode, Table.get?_modify] at hn
  split at hn
  · obtain ⟨m, hm, rfl⟩ := Option.map_eq_some_iff.mp hn
    exact ⟨m, ⟨hm, (hf m).2.symm.trans hr⟩, (hf m).1.symm.trans hx⟩
  · exact ⟨n, ⟨hn, hr⟩, hx⟩

/-- One node comes to keep something else. -/
lemma set (hw : w.AllData P) (hn : w'.nodes = w.nodes.modify id fun n => { n with extra := e })
    (he : ∀ d, e = some (.statement d) → P d) : w'.AllData P := by
  intro i n d hd
  obtain ⟨-, hold⟩ | ⟨-, hx, -⟩ := Bindings.hasData_cases hn hd
  · exact hw i n d hold
  · exact he d hx

lemma retire (hw : w.AllData P) (hf : w.Forest) (hl : w.Live id n) : (w.retire id).AllData P := by
  refine hw.carry fun i m d hd => ?_
  obtain ⟨-, rfl⟩ | ⟨-, m', hm', rfl⟩ := hf.retire_cases hl hd.1.1
  · cases hd.1.2
  · exact ⟨m', ⟨hm', hd.1.2⟩, hd.2⟩

/-- A new node keeps nothing at first. -/
lemma grow (hw : w.AllData P) (hf : w.Forest) (h : Fits node w) (hx : node.extra = none) :
    (w.grow node).AllData P := by
  refine hw.carry fun i n d hd => ?_
  obtain ⟨⟨hn, hr⟩, hkeep⟩ := hd
  obtain ⟨-, rfl⟩ | ⟨-, m, hm, rfl⟩ := hf.grow_cases h hn
  · rw [Node.Keeps, hx] at hkeep
    cases hkeep
  · refine ⟨m, ⟨hm, ?_⟩, ?_⟩
    · simpa [apply_ite Node.released, Node.addChild] using hr
    · simpa [Node.Keeps, apply_ite Node.extra, Node.addChild] using hkeep

end World.AllData

open World
variable {t : Terms} {hs hs' : Multiset Nat} {w w' : World} {P : StatementData → Prop}

/-- Each move keeps what lasts. -/
theorem Move.allData (hP : StatementData.Lasting P) (ht : t.foreign = false) (h : Move t hs w hs' w')
    (hsound : Sound hs w) (ho : Owns t w) (hw : w.AllData P) : w'.AllData P := by
  have hforeign : t.foreign ≠ true := by simp [ht]
  have hf := hsound.forest
  cases h with
  | quiet h =>
    refine hw.carry fun i n d hd => ⟨n, ?_⟩
    rw [HasData, ← h.live]
    exact hd
  | foreign h => exact absurd h hforeign
  | fault => exact hw
  | openEnv => exact hw
  | acquire => exact hw.modifyNode (f := fun n => { n with holders := n.holders + 1 }) (fun _ => ⟨rfl, rfl⟩) _
  | drop id =>
    have hfewer := hw.modifyNode (f := Node.fewer) (fun _ => ⟨rfl, rfl⟩) id
    exact hf.drop_induction id hfewer fun v j m hv hp hj _ => hp.retire hv hj
  | release hl => exact (hf.release_induction hl hw fun v j m hv hp hj _ => hp.retire hv hj).2
  | wrap h => exact absurd h hforeign
  | @adopt _ _ node l _ hfits _ _ hx =>
    have hlib : AllData P { w with library := l } := hw
    have hforest : World.Forest { w with library := l } := hf.congr hf.table hf.envs (fun _ => rfl) fun _ => rfl
    exact hlib.grow hforest ⟨hfits.fresh, hfits.bare, hfits.parent, hfits.env, hfits.unknown⟩ hx
  | known hc hstored =>
    rw [ho.stranger hf (Library.created hc)] at hstored
    cases hstored
  | lend _ _ _ _ hfits _ _ _ hx => exact hw.grow hf hfits hx
  | keep hl he => exact hw.set rfl fun d hd => (he d hd).1 ▸ hP.fresh
  | @tune _ _ id n d d' hl hx hb hq hr ha =>
    refine hw.set rfl fun c hc => ?_
    obtain rfl : d' = c := Extra.statement.inj (Option.some.inj hc)
    exact hP.tune d d' (hw id n d ⟨hl, hx⟩) hb ha hr
  | @close _ _ id n d sql hl hx =>
    refine hw.set rfl fun c hc => ?_
    obtain rfl : d.reset sql = c := Extra.statement.inj (Option.some.inj hc)
    exact hP.reset d sql .closed
  | @renew _ _ id n d sql mode l hl hx =>
    refine hw.set rfl fun c hc => ?_
    obtain rfl : { d.reset sql with status := .ofMode mode } = c := Extra.statement.inj (Option.some.inj hc)
    exact hP.reset d sql _
  | @bind _ _ id n d plan l log hl hx hr ha hb hv hfit =>
    refine hw.set rfl fun c hc => ?_
    obtain rfl : { d with binds := (d.binds.add (BindObject.place plan w).1 d.allowRebinding).2 } = c :=
      Extra.statement.inj (Option.some.inj hc)
    exact hP.bind d _ w (hw id n d ⟨hl, hx⟩) hv hfit hr
  | execute => exact hw

theorem Path.allData (hP : StatementData.Lasting P) {a b : Multiset Nat × World} (ht : t.foreign = false)
    (h : Path t a b) (hsound : Sound a.1 a.2) (ho : Owns t a.2) (hw : a.2.AllData P) : b.2.AllData P := by
  induction h with
  | refl => exact hw
  | tail hp hm ih => exact hm.allData hP ht (Path.sound hp hsound) (Path.owns ht hp hsound ho) ih

end DbClient
