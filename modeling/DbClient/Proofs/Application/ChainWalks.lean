import DbClient.Proofs.Application.OwnershipLaw
import DbClient.Proofs.Walk.Steps
import DbClient.Proofs.Walk.Visits

/-! Walks over the chain of a statement in any application. As long as the callback spares the walk, it goes as it is
told: row by row and resultset by resultset. -/
namespace DbClient
open World RowAct

namespace Application
variable {t : Terms} {a : Application}

/-- Chains are in order in whatever way the client is used. -/
theorem Reachable.chains (ht : t.foreign = false) (h : Reachable t a) : a.world.library.Chains :=
  Path.chains ht (Runs.path h fit_start) fit_start.sound (owns_start t) fun _ => ⟨List.nodup_nil, by simp [start,
    World.fresh, Library.fresh, Library.listed]⟩

end Application

open Application
variable {σ : Type} {t : Terms} {items : σ → Multiset Item} {stmt : Statement} {rs : Resultset}
  {callback : Resultset → RowAct σ Bool} {front rest chain : List (Address × Cursor)} {taken : Option Nat}
  {h : Address} {c c' : Cursor} {s s' : σ} {w w' : World} {vs : List Visit}

/-- A callback spares the walk over the chain of a statement: where it answers, the chain is on offer as it was before
the call, and the resultset that it was lent is still open. It may do anything else, and where it fails, anything. -/
def Statement.SparedBy (t : Terms) (items : σ → Multiset Item) (stmt : Statement)
    (callback : Resultset → RowAct σ Bool) : Prop :=
  ∀ rs s w b s' w' chain taken, Reachable t ⟨w, {.resultset rs} + items s⟩ →
    (callback rs).run (s, w) = (.ok b, (s', w')) → stmt.Offers chain taken w → rs.handle.isNull w = false →
    stmt.Offers chain taken w' ∧ rs.handle.isNull w' = false

/-- A resultset of a chain on offer is open in the course of a walk. -/
structure Underway (t : Terms) (items : σ → Multiset Item) (stmt : Statement) (chain : List (Address × Cursor))
    (taken : Option Nat) (rs : Resultset) (h : Address) (s : σ) (w : World) : Prop where
  reachable : Reachable t ⟨w, {.resultset rs} + items s⟩
  offers : stmt.Offers chain taken w
  opened : ∃ j m, rs.handle.node = some j ∧ w.Live j m ∧ m.native = h

namespace Underway

lemma native (hu : Underway t items stmt chain taken rs h s w) : rs.handle.native w = h := by
  obtain ⟨j, m, hj, hm, hnative⟩ := hu.opened
  rw [Wrapper.native_of_live hj hm, hnative]

/-- The cursor moves on. -/
lemma next (ht : t.foreign = false) (hu : Underway t items stmt (front ++ (h, c) :: rest) taken rs h s w) :
    ∃ w', rs.next.run w = (.ok (c.fetch .next).1, w') ∧
      Underway t items stmt (front ++ (h, (c.fetch .next).2) :: rest) taken rs h s w' := by
  obtain ⟨j, m, hj, hm, hnative⟩ := hu.opened
  obtain ⟨w', hrun, hnodes, ho⟩ := Resultset.run_next (hu.reachable.chains ht) hu.offers hj hm hnative
  refine ⟨w', hrun, Relation.ReflTransGen.trans hu.reachable ?_, ho, j, m, hj, ⟨hnodes ▸ hm.1, hm.2⟩, hnative⟩
  have hleads : Leads t items {.resultset rs} (fun _ => {.resultset rs}) (RowAct.ofAct rs.next) := rs.leads_next
  have hruns := hleads s w
  rw [run_ofAct, hrun] at hruns
  exact hruns

/-- A call of the callback that answers changes nothing for the walk. -/
lemma answered {b : Bool} (hc : Lending t items callback) (hs : stmt.SparedBy t items callback)
    (hu : Underway t items stmt chain taken rs h s w) (hr : (callback rs).run (s, w) = (.ok b, (s', w'))) :
    Underway t items stmt chain taken rs h s' w' := by
  obtain ⟨j, m, hj, hm, hnative⟩ := hu.opened
  have hruns := hc rs s w
  rw [hr] at hruns
  obtain ⟨ho, hopen⟩ := hs rs s w b s' w' chain taken hu.reachable hr hu.offers
    (Wrapper.isNull_eq_false.mpr ⟨j, m, hj, hm⟩)
  obtain ⟨i, k, hi, hk⟩ := Wrapper.isNull_eq_false.mp hopen
  obtain rfl := Option.some.inj (hj.symm.trans hi)
  have hcarries := Path.carries (Runs.path hruns (Reachable.fit hu.reachable)) (Reachable.fit hu.reachable).sound
  have hstem := (hcarries.stem j m k hm.1 hk).2
  exact ⟨Relation.ReflTransGen.trans hu.reachable hruns, ho, j, k, hj, hk, (Node.of_stem hstem).1.trans hnative⟩

/-- A notice changes nothing for the walk. -/
lemma note (hu : Underway t items stmt chain taken rs h s w) (n : Notice) :
    Underway t items stmt chain taken rs h s (w.note n) := by
  obtain ⟨j, m, hj, hm, hnative⟩ := hu.opened
  have hleads : Leads t items {.resultset rs} (fun _ => {.resultset rs}) (RowAct.ofAct (Act.note n)) :=
    Resultset.leads_note n
  exact ⟨Relation.ReflTransGen.trans hu.reachable (hleads s w), hu.offers.of_library (fun _ _ => .of_nodes rfl) rfl,
    j, m, hj, hm, hnative⟩

/-! ### Rows -/

/-- The walk over the rows behind the cursor of a resultset: all bounds that are great enough lead to the same. -/
theorem walked (ht : t.foreign = false) (hc : Lending t items callback) (hs : stmt.SparedBy t items callback)
    (hu : Underway t items stmt (front ++ (h, c) :: rest) taken rs h s w) (vs : List Visit) :
    ∃ us r s' w', Walked h c us r ∧
      (∀ c', r = .ok c' → Underway t items stmt (front ++ (h, c') :: rest) taken rs h s' w') ∧
      ∀ fuel count, c.rows.length - c.pos < fuel →
        (rs.walk (Resultset.recorded callback) fuel count).run ((s, vs), w) =
          (r.map fun _ => count + Visit.accepted us, ((s', vs ++ us), w')) := by
  -- by induction on the rows that are left: each step of the cursor leaves one less
  generalize hleft : c.rows.length - c.pos = left
  induction left generalizing c s w vs with
  | zero =>
    obtain ⟨w1, hnext, hu1⟩ := hu.next ht
    obtain ⟨rows, pos⟩ := c
    have hend : rows.length ≤ pos := Nat.le_of_sub_eq_zero hleft
    rw [Cursor.fetch_next, if_neg (Nat.not_lt_of_le hend)] at hnext hu1
    refine ⟨[], .ok ⟨rows, rows.length + 1⟩, s, w1, .exhausted hend, fun c' hc' => ?_, fun fuel count hfuel => ?_⟩
    · obtain rfl := Except.ok.inj hc'
      exact hu1
    · obtain ⟨fuel, rfl⟩ := Nat.exists_eq_succ_of_ne_zero (Nat.ne_of_gt hfuel)
      rw [Resultset.walk, run_bind, run_ofAct, hnext, List.append_nil]
      rfl
  | succ left ih =>
    obtain ⟨w1, hnext, hu1⟩ := hu.next ht
    obtain ⟨rows, pos⟩ := c
    have hrow : pos < rows.length := by
      dsimp only at hleft
      omega
    rw [Cursor.fetch_next, if_pos hrow] at hnext hu1
    have hcursor : w1.library.rsets.get? h = some ⟨rows, pos + 1⟩ := hu1.offers.cursors (h, ⟨rows, pos + 1⟩) (by simp)
    have hstep := Resultset.run_walk_row callback hnext hu1.native hcursor s vs
    rcases hr : (callback rs).run (s, w1) with ⟨e | b, s2, w2⟩
    · refine ⟨_, _, s2, w2, .failed hrow e, fun _ h => (by cases h), fun fuel count hfuel => ?_⟩
      obtain ⟨fuel, rfl⟩ := Nat.exists_eq_succ_of_ne_zero (Nat.ne_of_gt (Nat.zero_lt_of_lt hfuel))
      rw [hstep, hr]
      rfl
    · have hu2 := hu1.answered hc hs hr
      cases b with
      | false =>
        refine ⟨_, _, s2, w2, .declined hrow, fun c' hc' => ?_, fun fuel count hfuel => ?_⟩
        · obtain rfl := Except.ok.inj hc'
          exact hu2
        · obtain ⟨fuel, rfl⟩ := Nat.exists_eq_succ_of_ne_zero (Nat.ne_of_gt (Nat.zero_lt_of_lt hfuel))
          rw [hstep, hr]
          rfl
      | true =>
        obtain ⟨us, r, s3, w3, hwalked, hend, hruns⟩ :=
          ih hu2 (vs ++ [⟨h, some ⟨rows, pos + 1⟩, .ok true⟩]) (by dsimp only at hleft ⊢; omega)
        refine ⟨_, r, s3, w3, .accepted hrow hwalked, hend, fun fuel count hfuel => ?_⟩
        obtain ⟨fuel, rfl⟩ := Nat.exists_eq_succ_of_ne_zero (Nat.ne_of_gt (Nat.zero_lt_of_lt hfuel))
        rw [hstep, hr]
        dsimp only
        rw [hruns fuel (count + 1) (Nat.lt_of_succ_lt_succ hfuel), Visit.accepted_cons, List.append_assoc, if_pos rfl]
        simp only [Nat.add_assoc, Nat.add_comm 1, List.singleton_append]

/-- The walk over a resultset ends like that over its rows, and so does one with a bound that is great enough. -/
lemma walked_forEach (ht : t.foreign = false) (hc : Lending t items callback) (hs : stmt.SparedBy t items callback)
    (hu : Underway t items stmt (front ++ (h, c) :: rest) taken rs h s w) (vs : List Visit) :
    ∃ us r s' w', Walked h c us r ∧
      (∀ c', r = .ok c' → Underway t items stmt (front ++ (h, c') :: rest) taken rs h s' w') ∧
      (rs.forEach (Resultset.recorded callback)).run ((s, vs), w) =
        (r.map fun _ => Visit.accepted us, ((s', vs ++ us), w')) ∧
      ∀ rows, c.rows.length - c.pos < rows →
        (rs.forEachWithin rows (Resultset.recorded callback)).run ((s, vs), w) =
          (r.map fun _ => Visit.accepted us, ((s', vs ++ us), w')) := by
  obtain ⟨us, r, s', w', hwalked, hend, hruns⟩ := hu.walked ht hc hs vs
  let v : World := match r with
    | .ok _ => w'.note (.accepted (Visit.accepted us))
    | .error _ => w'
  have hwithin : ∀ rows, c.rows.length - c.pos < rows →
      (rs.forEachWithin rows (Resultset.recorded callback)).run ((s, vs), w) =
        (r.map fun _ => Visit.accepted us, ((s', vs ++ us), v)) := by
    intro rows hrows
    rw [Resultset.forEachWithin, run_bind, hruns rows 0 hrows, Nat.zero_add]
    cases r <;> rfl
  have hleft : rs.rowsLeft w = c.rows.length - c.pos := by
    rw [Resultset.rowsLeft, hu.native, hu.offers.cursors (h, c) (by simp)]
    rfl
  have hrun : (rs.forEach (Resultset.recorded callback)).run ((s, vs), w) =
      (rs.forEachWithin (rs.rowsLeft w + 1) (Resultset.recorded callback)).run ((s, vs), w) := rfl
  refine ⟨us, r, s', v, hwalked, fun c' hc' => ?_, ?_, hwithin⟩
  · subst hc'
    exact (hend c' rfl).note _
  · rw [hrun, hleft]
    exact hwithin _ (Nat.lt_succ_self _)

end Underway

/-! ### Resultsets -/

/-- Where a walk over a chain stands before the resultsets that are left: the first of these has been taken, and if
none are left, none has. -/
inductive Statement.AtHand (t : Terms) (items : σ → Multiset Item) (stmt : Statement)
    (front : List (Address × Cursor)) : List (Address × Cursor) → Option Nat → Option Resultset → σ → World → Prop
  | done {taken : Option Nat} {s : σ} {w : World} (ho : stmt.Offers front taken w) :
      AtHand t items stmt front [] taken none s w
  | drawn {rest : List (Address × Cursor)} {h : Address} {c : Cursor} {rs : Resultset} {s : σ} {w : World}
      (hu : Underway t items stmt (front ++ (h, c) :: rest) (some front.length) rs h s w) :
      AtHand t items stmt front ((h, c) :: rest) (some front.length) (some rs) s w

namespace Underway

/-- The next resultset is asked for while the one at hand is held, and this one is dropped then. -/
lemma asked (hstay : ∀ s, .statement stmt ∈ items s) (hu : Underway t items stmt chain taken rs h s w)
    {r : Except ClientError (Option Resultset)} (hr : stmt.nextResultset.run w = (r, w')) :
    Reachable t ⟨w', {.resultset rs} + r.toOption.elim 0 resultsetItems + items s⟩ ∧
      Reachable t ⟨rs.drop w', r.toOption.elim 0 resultsetItems + items s⟩ := by
  have hleads : Leads t items {.resultset rs} (fun r => {.resultset rs} + r.toOption.elim 0 resultsetItems)
      (RowAct.ofAct stmt.nextResultset) := by
    have hask : Leads t items {.resultset rs} _ (RowAct.ofAct stmt.nextResultset) :=
      Statement.leads_ask hstay .nextResultset rfl
    simpa only [Multiset.add_comm] using hask
  have hasked := hleads s w
  have hdropped := hleads.sweeping s w
  rw [run_ofAct, hr] at hasked
  rw [run_sweeping, run_ofAct, hr] at hdropped
  exact ⟨Relation.ReflTransGen.trans hu.reachable hasked, Relation.ReflTransGen.trans hu.reachable hdropped⟩

/-- The resultset gives way to the next one of the chain, if there is one. -/
lemma advance (ht : t.foreign = false) (hstay : ∀ s, .statement stmt ∈ items s)
    (hu : Underway t items stmt (front ++ (h, c) :: rest) (some front.length) rs h s w) :
    ∃ found w', stmt.nextResultset.run w = (.ok found, w') ∧
      stmt.AtHand t items (front ++ [(h, c)]) rest (some (front ++ [(h, c)]).length) found s (rs.drop w') := by
  have hfit := Reachable.fit hu.reachable
  have hhoused : w.Housed stmt.env := (hfit.housed (.statement stmt) (Multiset.mem_add.mpr (.inr (hstay s)))).1
  have hbehind : (front ++ (h, c) :: rest)[front.length + 1]? = rest.head? := by
    rw [List.getElem?_append_right (Nat.le_add_right _ 1), Nat.add_sub_cancel_left, List.getElem?_cons_succ,
      List.head?_eq_getElem?]
  obtain ⟨r, w', hrun, hdrawn⟩ : ∃ r w', stmt.nextResultset.run w = (r, w') ∧ stmt.Drawn _ _ _ w r w' :=
    ⟨_, _, rfl, Statement.ends_nextResultset (Reachable.owns ht hu.reachable) hfit.sound.forest hhoused hu.offers⟩
  rw [hbehind] at hdrawn
  -- the resultset is still open when it is dropped
  obtain ⟨j, m, hj, hm, hnative⟩ := hu.opened
  obtain ⟨m', hm', hkept, -⟩ := hdrawn.upholds j m hm
  have hnative' : m'.native = h := hkept.trans hnative
  obtain ⟨hreach, hreach'⟩ := hu.asked hstay hrun
  have howns := Reachable.owns ht hreach
  have hforest := (Reachable.fit hreach).sound.forest
  have hdrop : rs.drop w' = Wrapper.drop ⟨some j⟩ w' := congrArg (Wrapper.drop · w') (congrArg Wrapper.mk hj)
  have hoffers : stmt.Offers (front ++ [(h, c)] ++ rest) (some (front ++ [(h, c)]).length) (rs.drop w') := by
    have hdropped : stmt.Offers _ _ (rs.drop w') :=
      hdrawn.offers.drop (p := (h, c)) howns hforest hj hm' (by simp) hnative'
    simpa using hdropped
  cases rest with
  | nil =>
    obtain rfl := hdrawn.ending rfl
    exact ⟨none, w', hrun, .done (by simpa using hoffers)⟩
  | cons p rest =>
    obtain ⟨rs', i, q, rfl, hi, hq, hqn⟩ := hdrawn.opening p.1 rfl
    have hne : h ≠ p.1 := hdrawn.offers.ne_of_nodup (hreach.chains ht)
    obtain ⟨q', hq', hqn', -⟩ := hdrawn.offers.upholds_drop (p := (h, c)) (q := p) howns hforest hm' (by simp)
      hnative' hq (by simp) hqn hne q hq
    exact ⟨some rs', w', hrun, .drawn ⟨hreach', hoffers, i, q', hi, hdrop ▸ hq', hqn'.trans hqn⟩⟩

end Underway

namespace Statement

lemma AtHand.offers {found : Option Resultset} (hat : stmt.AtHand t items front rest taken found s w) :
    stmt.Offers (front ++ rest) taken w := by
  cases hat with
  | done ho => rwa [List.append_nil]
  | drawn hu => exact hu.offers

/-- A walk over a resultset that goes like that of the client, wherever in the chain the resultset stands. -/
def Follows (t : Terms) (items : σ → Multiset Item) (stmt : Statement) (callback : Resultset → RowAct σ Bool)
    (walk : Resultset → RowAct (σ × List Visit) Nat) (p : Address × Cursor) : Prop :=
  ∀ front rest rs s vs w, Underway t items stmt (front ++ p :: rest) (some front.length) rs p.1 s w →
    (walk rs).run ((s, vs), w) = (rs.forEach (Resultset.recorded callback)).run ((s, vs), w)

/-- The walk over the resultsets of a chain that are left. -/
theorem AtHand.chained (ht : t.foreign = false) (hstay : ∀ s, .statement stmt ∈ items s) (hc : Lending t items callback)
    (hs : stmt.SparedBy t items callback) {found : Option Resultset}
    (hat : stmt.AtHand t items front rest taken found s w) (vs : List Visit) :
    ∃ us r s' w', Chained rest us r ∧
      (∀ ended, r = .ok ended →
        stmt.Offers (front ++ ended) (if rest = [] then taken else some (front.length + rest.length)) w') ∧
      ∀ walk, (∀ p ∈ rest, Follows t items stmt callback walk p) → ∀ fuel total, rest.length ≤ fuel →
        (stmt.walkChain walk fuel found total).run ((s, vs), w) =
          (r.map fun _ => total + Visit.accepted us, ((s', vs ++ us), w')) := by
  -- by induction on the resultsets that are left, while the ones in front are kept with the cursors that they got
  induction rest generalizing front taken found s w vs with
  | nil =>
    cases hat with
    | done ho =>
      refine ⟨[], .ok [], s, w, .done, fun ended he => ?_, fun walk _ fuel total _ => ?_⟩
      · obtain rfl := Except.ok.inj he
        simpa using ho
      · rw [List.append_nil]
        cases fuel <;> rfl
  | cons p rest ih =>
    cases hat with
    | @drawn _ h c rs _ _ hu =>
      obtain ⟨us, r, s1, w1, hwalked, hend, hrun, -⟩ := hu.walked_forEach ht hc hs vs
      cases r with
      | error e =>
        refine ⟨us, .error e, s1, rs.drop w1, .stopped hwalked, nofun, fun walk hwalk fuel total hfuel => ?_⟩
        obtain ⟨fuel, rfl⟩ := Nat.exists_eq_succ_of_ne_zero (Nat.ne_of_gt (Nat.zero_lt_of_lt hfuel))
        rw [run_walkChain, hwalk (h, c) List.mem_cons_self _ _ _ _ _ _ hu, hrun]
        rfl
      | ok c' =>
        obtain ⟨found, w2, hnext, hat'⟩ := (hend c' rfl).advance ht hstay
        obtain ⟨us', r, s3, w3, hchained, hoffers, hruns⟩ := ih hat' (vs ++ us)
        refine ⟨us ++ us', _, s3, w3, .next hwalked hchained, fun ended he => ?_, fun walk hwalk fuel total hfuel => ?_⟩
        · cases r with
          | error e => cases he
          | ok ended' =>
            obtain rfl := Except.ok.inj he
            have htaken : (if rest = [] then some (front ++ [(h, c')]).length
                else some ((front ++ [(h, c')]).length + rest.length)) = some (front.length + (rest.length + 1)) := by
              split
              · rename_i hnil
                rw [hnil, List.length_append]
                rfl
              · rw [List.length_append, Nat.add_assoc, Nat.add_comm rest.length]
                rfl
            have hleft := hoffers ended' rfl
            rw [htaken, List.append_assoc] at hleft
            exact hleft
        · obtain ⟨fuel, rfl⟩ := Nat.exists_eq_succ_of_ne_zero (Nat.ne_of_gt (Nat.zero_lt_of_lt hfuel))
          rw [run_walkChain, hwalk (h, c) List.mem_cons_self _ _ _ _ _ _ hu, hrun]
          dsimp only [Except.map]
          rw [hnext]
          dsimp only
          rw [hruns walk (fun q hq => hwalk q (List.mem_cons_of_mem _ hq)) fuel _ (Nat.le_of_succ_le_succ hfuel),
            Visit.accepted_append, Nat.add_assoc, List.append_assoc]
          cases r <;> rfl

/-- The first resultset of a chain on offer is taken. -/
lemma drawn (ht : t.foreign = false) (hstay : ∀ s, .statement stmt ∈ items s) (hr : Reachable t ⟨w, items s⟩)
    (ho : stmt.Offers chain taken w) :
    ∃ found w', stmt.resultset.run w = (.ok found, w') ∧
      stmt.AtHand t items [] chain (if chain = [] then taken else some 0) found s w' := by
  have hfit := Reachable.fit hr
  have hhoused : w.Housed stmt.env := (hfit.housed (.statement stmt) (hstay s)).1
  obtain ⟨r, w', hrun, hdrawn⟩ : ∃ r w', stmt.resultset.run w = (r, w') ∧ stmt.Drawn _ _ _ w r w' :=
    ⟨_, _, rfl, ends_resultset (Reachable.owns ht hr) hfit.sound.forest hhoused ho⟩
  cases chain with
  | nil =>
    obtain rfl := hdrawn.ending rfl
    exact ⟨none, w', hrun, .done hdrawn.offers⟩
  | cons p rest =>
    obtain ⟨rs, i, q, rfl, hi, hq, hqn⟩ := hdrawn.opening p.1 rfl
    have hask : Leads t items 0 _ (RowAct.ofAct stmt.resultset) := leads_ask hstay .resultset rfl
    have hruns := hask s w
    rw [run_ofAct, hrun, Multiset.zero_add, Multiset.add_zero] at hruns
    exact ⟨some rs, w', hrun, .drawn ⟨Relation.ReflTransGen.trans hr hruns, hdrawn.offers, i, q, hi, hq, hqn⟩⟩

/-- The walk over a chain on offer, which takes as many steps as there are resultsets and rows. -/
theorem fetched (ht : t.foreign = false) (hstay : ∀ s, .statement stmt ∈ items s) (hc : Lending t items callback)
    (hs : stmt.SparedBy t items callback) (hr : Reachable t ⟨w, items s⟩) (ho : stmt.Offers chain taken w)
    (vs : List Visit) :
    ∃ us r s' w', Chained chain us r ∧
      (∀ ended, r = .ok ended → stmt.Offers ended (if chain = [] then taken else some chain.length) w') ∧
      (stmt.fetch (Resultset.recorded callback)).run ((s, vs), w) =
        (r.map fun _ => Visit.accepted us, ((s', vs ++ us), w')) ∧
      ∀ rows resultsets, (∀ p ∈ chain, p.2.rows.length - p.2.pos < rows) → chain.length ≤ resultsets →
        (stmt.fetchWithin rows resultsets (Resultset.recorded callback)).run ((s, vs), w) =
          (r.map fun _ => Visit.accepted us, ((s', vs ++ us), w')) := by
  obtain ⟨found, w1, hrun, hat⟩ := drawn ht hstay hr ho
  obtain ⟨us, r, s', w', hchained, hoffers, hruns⟩ := hat.chained ht hstay hc hs vs
  refine ⟨us, r, s', w', hchained, fun ended he => ?_, ?_, fun rows resultsets hrows hresultsets => ?_⟩
  · have hleft := hoffers ended he
    split at hleft <;> simpa [*] using hleft
  · have hlength : stmt.chainLength w1 = chain.length := hat.offers.chainLength
    rw [fetch, walkAll, run_bind, run_ofAct, hrun]
    change (stmt.walkChain _ (stmt.chainLength w1) found 0).run ((s, vs), w1) = _
    rw [hlength, hruns _ (fun _ _ _ _ _ _ _ _ _ => rfl) _ _ (Nat.le_refl _), Nat.zero_add]
  · have hfollows : ∀ p ∈ chain, Follows t items stmt callback
        (fun rs => rs.forEachWithin rows (Resultset.recorded callback)) p := by
      intro p hp front rest rs s vs w hu
      obtain ⟨us, r, s', w', -, -, heach, hwithin⟩ := Underway.walked_forEach (c := p.2) ht hc hs hu vs
      exact (hwithin rows (hrows p hp)).trans heach.symm
    rw [fetchWithin, run_bind, run_ofAct, hrun]
    change (stmt.walkChain _ resultsets found 0).run ((s, vs), w1) = _
    rw [hruns _ hfollows _ _ hresultsets, Nat.zero_add]

end Statement
end DbClient
