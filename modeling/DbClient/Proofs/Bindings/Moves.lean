import DbClient.Proofs.Bindings.World

/-! Bindings along all moves of a client that wraps no handle itself: texts are prepared, variables bound and
bound again, statements executed and released, and any primitive may fail at any time. -/
namespace DbClient
namespace Bindings
open World Library
variable {t : Terms} {hs : Multiset Nat} {w w' : World} {id i j : Nat} {n m : Node} {d : StatementData}
  {e : Option Extra} {l : Library} {sql : String} {mode : PrepareMode}

lemma hasData_cases (hn : w'.nodes = w.nodes.modify id fun n => { n with extra := e }) (hd : w'.HasData i n d) :
    i ≠ id ∧ w.HasData i n d ∨ i = id ∧ e = some (.statement d) ∧ ∃ m, w.Live id m ∧ m.native = n.native := by
  obtain ⟨⟨hi, hr⟩, hx⟩ := hd
  rw [hn, Table.get?_modify] at hi
  split at hi
  · rename_i he
    obtain ⟨m, hm, rfl⟩ := Option.map_eq_some_iff.mp hi
    exact .inr ⟨he.symm, hx, m, ⟨he ▸ hm, hr⟩, rfl⟩
  · rename_i he
    exact .inl ⟨Ne.symm he, ⟨hi, hr⟩, hx⟩

/-- One node comes to keep something else. -/
theorem set (hw : Bindings w) (hn : w'.nodes = w.nodes.modify id fun n => { n with extra := e })
    (memory : w'.memory.Lawful)
    (buffers : ∀ i n d, w.HasData i n d → i ≠ id → ∀ b ∈ d.binds.buffers,
      (w'.memory.get? b).map List.length = (w.memory.get? b).map List.length)
    (stmts : ∀ i n d, w.HasData i n d → i ≠ id →
      w'.library.stmts.get? n.native = w.library.stmts.get? n.native)
    (stocked : ∀ d, e = some (.statement d) → d.binds.Stocked w'.memory)
    (apart : ∀ d, e = some (.statement d) → ∀ j m c, w.HasData j m c → j ≠ id →
      d.binds.buffers.Disjoint c.binds.buffers)
    (agree : ∀ n d, w.Live id n → e = some (.statement d) → Status.prepared.rank ≤ d.status.rank →
      ∃ st, w'.library.stmts.get? n.native = some st ∧ d.Agrees st) : Bindings w' := by
  refine hw.update memory (some id) (fun i n d hd hne => ?_) (fun i n d hd hi => ?_)
    (fun i n d hd hi j m c hc hij => ?_)
    fun i n d hd hi hr => ?_
  · obtain ⟨hi, hold⟩ | ⟨rfl, -⟩ := hasData_cases hn hd
    · exact ⟨⟨n, hold, rfl⟩, buffers i n d hold hi, fun _ => by rw [stmts i n d hold hi]⟩
    · exact absurd rfl hne
  all_goals
    obtain rfl := Option.some.inj hi
    obtain ⟨hne, -⟩ | ⟨-, he, m', hm', hnative⟩ := hasData_cases hn hd
    · exact absurd rfl hne
  · exact stocked d he
  · exact apart d he j m c hc (Ne.symm hij)
  · rw [← hnative]
    exact agree m' d hm' he hr

/-- Buffers that go with what a node keeps are not missed by any other node. -/
lemma get?_freed (hw : Bindings w) (hl : w.Live id n) (hd : w.HasData i m d) (hne : i ≠ id) :
    ∀ b ∈ d.binds.buffers, (n.buffers.foldl Table.erase w.memory).get? b = w.memory.get? b := by
  intro b hb
  rw [Table.get?_erase_all, if_neg]
  intro hfreed
  unfold Node.buffers at hfreed
  split at hfreed
  · rename_i c hx
    exact hw.apart i id m n d c hd ⟨hl, hx⟩ hne hb hfreed
  · cases hfreed

lemma buffers_of_keeps (hx : n.Keeps d) : n.buffers = d.binds.buffers := by
  rw [Node.Keeps] at hx
  rw [Node.buffers, hx]

/-- Data without objects have nothing in common with others. -/
lemma disjoint_empty {d c : StatementData} (h : d.binds = .empty) : d.binds.buffers.Disjoint c.binds.buffers := by
  rw [h]
  exact List.disjoint_nil_left _

theorem keep (hw : Bindings w) (hl : w.Live id n) (he : ∀ d, e = some (.statement d) → d = .fresh) :
    Bindings ((w.modifyNode id fun n => { n with extra := e }).freeBuffers n.buffers) := by
  refine hw.set rfl (hw.memory.erase_all _) (fun i m d hd hne b hb => ?_) (fun _ _ _ _ _ => rfl) (fun d hx => ?_)
    (fun d hx _ _ _ _ _ => ?_) fun m d _ hx hr => ?_
  · exact congrArg _ (hw.get?_freed hl hd hne b hb)
  · rw [he d hx]
    exact BindsHolder.stocked_empty _
  · exact disjoint_empty (by rw [he d hx]; rfl)
  · rw [he d hx] at hr
    exact absurd hr (by decide)

theorem tune {d' : StatementData} (hw : Bindings w) (hl : w.Live id n) (hx : n.Keeps d) (hb : d'.binds = d.binds)
    (hs : d'.sql = d.sql) (hr : Status.prepared.rank ≤ d'.status.rank → Status.prepared.rank ≤ d.status.rank) :
    Bindings (w.modifyNode id (Node.keeping d')) := by
  refine hw.set rfl hw.memory (fun _ _ _ _ _ _ _ => rfl) (fun _ _ _ _ _ => rfl) (fun c hc => ?_)
    (fun c hc j m e he hne => ?_) fun m c hm hc hrc => ?_
  all_goals
    obtain rfl : d' = c := Extra.statement.inj (Option.some.inj hc)
  · rw [hb]
    exact hw.stocked id n d ⟨hl, hx⟩
  · rw [hb]
    exact hw.apart id j n m d e ⟨hl, hx⟩ he (Ne.symm hne)
  · obtain rfl := hm.unique hl
    obtain ⟨st, hst, hag⟩ := hw.agree id m d ⟨hm, hx⟩ (hr hrc)
    exact ⟨st, hst, hag.congr rfl ⟨hs, hb⟩⟩

theorem close (hw : Bindings w) (sql : String) (hl : w.Live id n) (hx : n.Keeps d) :
    Bindings ((w.modifyNode id (Node.keeping (d.reset sql))).freeBuffers d.binds.buffers) := by
  refine hw.set rfl (hw.memory.erase_all _) (fun i m c hc hne b hb => ?_) (fun _ _ _ _ _ => rfl) (fun c hc => ?_)
    (fun c hc _ _ _ _ _ => ?_) fun m c _ hc hr => ?_
  · rw [← buffers_of_keeps hx]
    exact congrArg _ (hw.get?_freed hl hc hne b hb)
  all_goals obtain rfl : d.reset sql = c := Extra.statement.inj (Option.some.inj hc)
  · exact BindsHolder.stocked_empty _
  · exact disjoint_empty rfl
  · exact absurd hr (by decide : ¬Status.prepared.rank ≤ Status.closed.rank)

theorem renew (hw : Bindings w) (ho : Owns t w) (hl : w.Live id n) (hp : Prepared n.native sql mode w.library l) :
    Bindings (World.modifyNode id (Node.keeping { d.reset sql with status := .ofMode mode })
      { w with library := l }) := by
  obtain ⟨q, hq⟩ := ho.coherent.stmts n.native hp.known
  refine hw.set rfl hw.memory (fun _ _ _ _ _ _ _ => rfl) (fun i m c hc hne => ?_) (fun c hc => ?_)
    (fun c hc _ _ _ _ _ => ?_) fun m c hm hc _ => ?_
  · exact (hp.stmts _).trans (if_neg (native_ne ho hl hq hc hne))
  all_goals obtain rfl : { d.reset sql with status := .ofMode mode } = c :=
    Extra.statement.inj (Option.some.inj hc)
  · exact BindsHolder.stocked_empty _
  · exact disjoint_empty rfl
  · obtain rfl := hm.unique hl
    exact ⟨_, (hp.stmts _).trans (if_pos rfl), .fresh _ d⟩

/-- An object is bound in both tables. Its buffer is new, and the one of the object that it replaces is no
longer in either table when it goes. -/
theorem bind {plan : BindPlan} {log : List Event} (hw : Bindings w) (ho : Owns t w) (hl : w.Live id n)
    (hx : n.Keeps d) (hr : Status.prepared.rank ≤ d.status.rank)
    (ha : (∃ o ∈ d.binds.objects, o.name = plan.name) → d.allowRebinding = true)
    (hb : BoundTo n.native (BindObject.place plan w).1.desc w.library l) :
    Bindings (World.rebound id d (BindObject.place plan w).1
      { (BindObject.place plan w).2 with library := l, log := log }) := by
  have hs := hw.stocked id n d ⟨hl, hx⟩
  obtain ⟨st, hst, hag⟩ := hw.agree id n d ⟨hl, hx⟩ hr
  obtain ⟨q, hq⟩ := ho.coherent.stmts n.native (by rw [hst]; rfl)
  obtain ⟨st', -, -, hst', -, hall⟩ := hb.stmts
  obtain rfl := Option.some.inj (hst'.symm.trans hst)
  -- the objects of other statements lie elsewhere
  have hother : ∀ i m c, w.HasData i m c → i ≠ id →
      ∀ b ∈ c.binds.buffers, b ∉ d.binds.buffers ∧ b ≠ w.memory.next :=
    fun i m c hc hne b hbc => ⟨fun hbd => hw.apart i id m n c d hc ⟨hl, hx⟩ hne hbc hbd,
      (hw.stocked i m c hc).ne_next hw.memory hbc⟩
  refine hw.set rfl ((hw.memory.add _).erase_all _) (fun i m c hc hne b hbc => ?_) (fun i m c hc hne => ?_)
    (fun c hc => ?_) (fun c hc j m e he hne => ?_) fun m c hm hc _ => ?_
  · obtain ⟨hbd, hbn⟩ := hother i m c hc hne b hbc
    refine congrArg _ ((Table.get?_erase_all _ _ b).trans ((if_neg fun hgone => hbd ?_).trans
      ((Table.get?_add _ _ b).trans (if_neg (Ne.symm hbn)))))
    obtain ⟨p, hp, -, rfl⟩ := BindsHolder.mem_replaced hs.names ha hgone
    exact List.mem_map_of_mem hp
  · exact (hall _).trans (if_neg (native_ne ho hl hq hc hne))
  all_goals
    obtain rfl : { d with binds := (d.binds.add (BindObject.place plan w).1 d.allowRebinding).2 } = c :=
      Extra.statement.inj (Option.some.inj hc)
  · exact hs.add hw.memory rfl ha
  · intro b hbd hbe
    obtain ⟨hnot, hnext⟩ := hother j m e he hne b hbe
    exact (BindsHolder.mem_buffers_add hs.names ha hbd).elim hnot hnext
  · obtain rfl := hm.unique hl
    exact ⟨_, (hall _).trans (if_pos rfl), hag.bind hs.names ha⟩

end Bindings

open World Library
variable {t : Terms} {hs hs' : Multiset Nat} {w w' : World}

/-- Each move of a client that wraps no handle itself keeps the variables of statements in order. -/
theorem Move.bindings (ht : t.foreign = false) (h : Move t hs w hs' w') (hs : Sound hs w) (ho : Owns t w)
    (hw : Bindings w) : Bindings w' := by
  have hforeign : t.foreign ≠ true := fun e => by
    rw [ht] at e
    cases e
  have hf := hs.forest
  cases h with
  | quiet h => exact hw.quiet h
  | foreign h => exact absurd h hforeign
  | fault => exact hw.ofNodes (fun i n d hd => ⟨n, hd, rfl⟩) rfl fun _ _ _ _ _ => rfl
  | openEnv => exact hw.ofNodes (fun i n d hd => ⟨n, hd, rfl⟩) rfl fun _ _ _ _ _ => rfl
  | acquire =>
    exact hw.modifyNode (f := fun n => { n with holders := n.holders + 1 }) (fun _ => ⟨rfl, rfl, rfl⟩) _
  | drop id =>
    -- the release of a leaf asks for ownership, which is kept along
    refine (hf.drop_induction (P := fun v => Owns t v ∧ Bindings v) id ⟨?_, ?_⟩ fun v j m hv hp hj hc =>
      ⟨hp.1.retire hv hj hc, hp.2.retire hp.1 hv hj⟩).2
    · exact ho.modifyNode (f := Node.fewer) (fun _ => rfl) id
    · exact hw.modifyNode (f := Node.fewer) (fun _ => ⟨rfl, rfl, rfl⟩) id
  | release hl =>
    exact (hf.release_induction (P := fun v => Owns t v ∧ Bindings v) hl ⟨ho, hw⟩ fun v j m hv hp hj hc =>
      ⟨hp.1.retire hv hj hc, hp.2.retire hp.1 hv hj⟩).2.2
  | wrap h => exact absurd h hforeign
  | adopt hc hfits _ _ hx => exact hw.adopt ho hf hfits hx (created hc)
  | known hc hstored =>
    rw [ho.stranger hf (created hc)] at hstored
    cases hstored
  | lend hl hp hst hr hfits _ _ _ hx => exact hw.grow hf hfits hx fun _ _ _ _ _ => rfl
  | keep hl he => exact hw.keep hl fun d hd => (he d hd).1
  | tune hl hx hb hq hr => exact hw.tune hl hx hb hq hr.mp
  | close sql hl hx => exact hw.close sql hl hx
  | renew hl hx hc hp => exact hw.renew ho hl (prepared hp)
  | bind hl hx hr ha hb => exact hw.bind ho hl hx hr ha (boundTo hb)
  | execute hl hc he =>
    obtain ⟨opened, he⟩ := executed he
    exact hw.executed he _

theorem Path.bindings {a b : Multiset Nat × World} (ht : t.foreign = false) (h : Path t a b)
    (hs : Sound a.1 a.2) (ho : Owns t a.2) (hw : Bindings a.2) : Bindings b.2 := by
  induction h with
  | refl => exact hw
  | tail hp hm ih => exact hm.bindings ht (Path.sound hp hs) (Path.owns ht hp hs ho) ih

end DbClient
