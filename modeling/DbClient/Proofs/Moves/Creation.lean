import DbClient.Proofs.Moves.Handles
import DbClient.Proofs.Native

/-! The wrapping of native handles as paths of moves: of those that the application brings along, of those
that are created for the purpose, and of resultsets. -/
namespace DbClient
open Act World

variable {t : Terms} {hs hs' : Multiset Nat} {w w' : World} {env id : Nat} {n : Node} {native : Address}
  {kind : HandleKind} {parent : Option Wrapper} {owned : Bool} {onRelease : ReleaseAction} {q : Option Nat}

/-! ### Environments stay -/

/-- There is an environment of a number. -/
def World.Housed (w : World) (env : Nat) : Prop := (w.store? env).isSome = true

lemma World.Forest.housed_retireAll {ids : List Nat} (hw : w.Forest) (hb : w.BottomUp ids)
    (he : w.Housed env) : (World.retireAll ids w).Housed env := by
  induction ids generalizing w with
  | nil => exact he
  | cons j ids ih =>
    obtain ⟨m, hm, -, hw', hb'⟩ := hw.retire_first hb
    apply ih hw' hb'
    rw [Housed, store?_retire hm.1]
    split
    · rw [Option.isSome_map]
      exact he
    · exact he

theorem Move.housed (h : Move t hs w hs' w') (hw : Sound hs w) (he : w.Housed env) : w'.Housed env := by
  have hstill : ∀ {v}, Still w v → v.Housed env := fun h => by
    rw [Housed, h.stores]
    exact he
  have hgrow : ∀ {v : World} {node}, v.Housed env → (v.grow node).Housed env := by
    intro v node hv
    rw [Housed, store?_grow]
    split
    · rw [Option.isSome_map]
      exact hv
    · exact hv
  have hrelease : ∀ {v : World} (id : Nat), v.Forest → v.Housed env → (v.release id).2.Housed env := by
    intro v id hv hve
    cases hn : v.nodes.get? id with
    | none => simpa only [World.release, World.releaseWithin, hn] using hve
    | some n =>
      by_cases hr : n.released = true
      · simpa only [World.release, World.releaseWithin, hn, hr, if_true] using hve
      · have hl : v.Live id n := ⟨hn, Bool.eq_false_iff.mpr hr⟩
        rw [hv.release hl]
        exact hv.housed_retireAll (hv.bottomUp hl) hve
  cases h with
  | quiet h => exact hstill (.of_quiet h)
  | foreign _ h => exact hstill h
  | fault _ e => exact he
  | @openEnv _ _ e _ =>
    change Option.isSome (((w.envs.add e).get? env).map EnvState.store) = true
    rw [Table.get?_add]
    split
    · rfl
    · exact he
  | acquire => exact he
  | drop id =>
    unfold Wrapper.drop
    dsimp only
    split
    · exact hrelease _
        (hw.forest.modifyNode (f := fun n => { n with holders := n.holders - 1 }) (fun _ => rfl) id) he
    · exact he
  | release hl => exact hrelease _ hw.forest he
  | wrap => exact hgrow he
  | @adopt _ _ node l =>
    have hlib : Housed { w with library := l } env := he
    exact hgrow hlib
  | known => exact he
  | lend => exact hgrow he
  | keep => exact he
  | tune => exact he
  | close => exact he
  | renew => exact he
  | @bind _ _ id _ d plan l log =>
    have hmade : Still w { (BindObject.place plan w).2 with library := l, log := log } := .of_eq rfl rfl rfl
    exact hstill (hmade.trans (.rebound id d _ _))
  | execute => exact he

theorem Path.housed {a b : Multiset Nat × World} (h : Path t a b) (hw : Sound a.1 a.2)
    (he : a.2.Housed env) : b.2.Housed env := by
  induction h with
  | refl => exact he
  | tail hp hm ih => exact hm.housed (Path.sound hp hw) ih

/-! ### Wrapping -/

/-- A node with its first wrapper. -/
def Node.wrapping (env : Nat) (native : Address) (kind : HandleKind) (parent : Option Nat) (owned : Bool)
    (onRelease : ReleaseAction) : Node :=
  { native := native, kind := kind, owned := owned, holders := 1, released := false, parent := parent,
    children := [], onRelease := onRelease, extra := none, env := env }

/-- The node to which a wrapper leads that is given as a parent. -/
def World.LeadsTo (w : World) (parent : Option Wrapper) (q : Option Nat) : Prop :=
  match parent with
  | none => q = none
  | some p => ∃ id n, p.node = some id ∧ w.Live id n ∧ q = some id

/-- The ways in which wrapping a handle can end: it is refused, the handle has a live node already, or it
gets one. -/
lemma Wrapper.wrap_cases (hw : w.Forest) (env : Nat) (native : Address) (kind : HandleKind)
    (parent : Option Wrapper) (owned : Bool) (onRelease : ReleaseAction) :
    ∃ r w', (wrap env native kind parent owned onRelease).run w = (r, w') ∧
    ((∃ e, r = .error e ∧ w' = w ∧ (native.isNull = true ∨ owned = true ∧ (w.stored? env native).isSome ∨
        ∀ q, ¬w.LeadsTo parent q)) ∨
      (∃ id n, w.stored? env native = some id ∧ w.Live id n ∧ (owned = true → n.owned = true) ∧
        r = .ok ⟨some id⟩ ∧ w' = (acquire id w).2) ∨
      ∃ q, w.stored? env native = none ∧ w.LeadsTo parent q ∧ r = .ok ⟨some w.nodes.next⟩ ∧
        w' = w.grow (Node.wrapping env native kind q owned onRelease)) := by
  unfold wrap
  dsimp only
  split
  · rename_i hnull
    exact ⟨_, _, rfl, .inl ⟨_, rfl, rfl, .inl hnull⟩⟩
  rw [run_bind, run_get]
  dsimp only
  split
  · rename_i id n hs
    obtain ⟨i, hi, hl⟩ := Option.bind_eq_some_iff.mp hs
    obtain ⟨hid, hlive⟩ := liveNode?_eq_some.mp hl
    obtain rfl : i = id := Option.some.inj hid
    split
    · rename_i ho
      have howned : owned = true := (Bool.and_eq_true_iff.mp ho).1
      exact ⟨_, _, rfl, .inl ⟨_, rfl, rfl, .inr (.inl ⟨howned, by rw [hi]; rfl⟩)⟩⟩
    · rename_i ho
      refine ⟨_, _, rfl, .inr (.inl ⟨i, n, hi, hlive, fun h => ?_, rfl, rfl⟩)⟩
      simpa [h] using ho
  · rename_i hs
    have hnone : w.stored? env native = none := by
      cases hi : w.stored? env native with
      | none => rfl
      | some i =>
        obtain ⟨m, hm, -, -⟩ := hw.stored env native i hi
        rw [hi, Option.bind_some, liveNode?_eq_some.mpr ⟨rfl, hm⟩] at hs
        cases hs
    split
    · exact ⟨_, _, rfl, .inr (.inr ⟨none, hnone, rfl, rfl, rfl⟩)⟩
    · rename_i p
      split
      · rename_i id n hp
        obtain ⟨hid, hlive⟩ := liveNode?_eq_some.mp hp
        exact ⟨_, _, rfl, .inr (.inr ⟨some id, hnone, ⟨id, n, hid, hlive, rfl⟩, rfl, rfl⟩)⟩
      · rename_i hp
        refine ⟨_, _, rfl, .inl ⟨_, rfl, rfl, .inr (.inr ?_)⟩⟩
        rintro q ⟨id, n, hid, hlive, -⟩
        rw [liveNode?_eq_some.mpr ⟨hid, hlive⟩] at hp
        cases hp

lemma World.leadsTo_none : w.LeadsTo none none := rfl

lemma World.LeadsTo.live (h : w.LeadsTo parent q) (p : Nat) (hp : q = some p) : ∃ m, w.Live p m := by
  unfold LeadsTo at h
  split at h
  · rw [h] at hp
    cases hp
  · obtain ⟨id, n, -, hl, rfl⟩ := h
    exact ⟨n, Option.some.inj hp ▸ hl⟩

lemma fits_wrapping (hu : w.stored? env native = none) (hq : w.LeadsTo parent q) (he : w.Housed env) :
    Fits (Node.wrapping env native kind q owned onRelease) w :=
  ⟨rfl, rfl, hq.live, he, hu⟩

/-- The application wraps a handle. -/
lemma Wrapper.takes_wrap (ht : t.foreign = true) (he : w.Housed env) :
    Takes t hs hs points (wrap env native kind parent owned onRelease) w := by
  intro hw
  obtain ⟨r, w', hrun, hcases⟩ := wrap_cases hw.forest env native kind parent owned
    onRelease
  rw [hrun]
  obtain ⟨e, rfl, rfl, -⟩ | ⟨id, n, -, hl, -, rfl, rfl⟩ | ⟨q, hu, hq, rfl, rfl⟩ := hcases
  · exact Relation.ReflTransGen.refl
  · exact (Move.acquire hl).gains
  · exact (Move.wrap ht (fits_wrapping hu hq he) rfl).gains

/-- A wrapper made with ownership leads to a live node that owns its handle. -/
lemma Wrapper.wrap_ok {h : Wrapper} (hw : w.Forest) (he : w.Housed env)
    (hr : (wrap env native kind parent true onRelease).run w = (.ok h, w')) :
    ∃ id n, h.node = some id ∧ w'.Live id n ∧ n.owned = true := by
  obtain ⟨r, v, hrun, hcases⟩ := wrap_cases hw env native kind parent true onRelease
  rw [hrun] at hr
  obtain ⟨rfl, rfl⟩ := Prod.mk.inj hr
  obtain ⟨e, he, -⟩ | ⟨id, n, -, hl, ho, hok, rfl⟩ | ⟨q, hu, hq, hok, rfl⟩ := hcases
  · cases he
  · cases hok
    refine ⟨id, { n with holders := n.holders + 1 }, rfl, ⟨?_, hl.2⟩, ho rfl⟩
    change (w.nodes.modify id _).get? id = _
    rw [Table.get?_modify, if_pos rfl, hl.1]
    rfl
  · cases hok
    exact ⟨_, _, rfl, ⟨hw.get?_grow_next (fits_wrapping hu hq he), rfl⟩, rfl⟩

/-! ### Creation -/

/-- The native handle of a node that a wrapper leads to. -/
lemma World.LeadsTo.nativeOf {p : Wrapper} {id : Nat} {n : Node} (hid : p.node = some id) (hl : w.Live id n) :
    w.LeadsTo (some p) (some id) ∧ w.nativeOf (some id) = n.native := by
  refine ⟨⟨id, n, hid, hl, rfl⟩, ?_⟩
  simp [World.nativeOf, hl.1]

/-- A handle that has just been created is wrapped, unless the application had wrapped its number before. -/
lemma Wrapper.wrap_created {l : Library} (t : Terms) (onRelease : ReleaseAction) (hw : Sound hs w)
    (he : w.Housed env) (hq : w.LeadsTo parent q)
    (hc : Library.create kind (w.nativeOf q) w.library = (some native, l)) :
    ∃ r w', (wrap env native kind parent true onRelease).run { w with library := l } = (r, w') ∧
      ((∃ h, r = .ok h ∧ Path t (hs, w) (h.points + hs, w') ∧
          ∃ id n, h.node = some id ∧ w'.Live id n ∧ n.owned = true) ∨
        ∃ e, r = .error e ∧ w' = { w with library := l } ∧ (w.stored? env native).isSome) := by
  have hlib : Still w { w with library := l } := .of_eq rfl rfl rfl
  have hv : World.Forest { w with library := l } := (hw.still hlib).forest
  have hqv : World.LeadsTo { w with library := l } parent q := hq
  obtain ⟨r, w', hrun, hcases⟩ := wrap_cases hv env native kind parent true onRelease
  refine ⟨r, w', hrun, ?_⟩
  obtain ⟨e, rfl, rfl, hnull | ⟨-, hs⟩ | hno⟩ | ⟨id, n, hs', hl, -, rfl, rfl⟩ | ⟨q', hu, hq', rfl, rfl⟩ := hcases
  · have hfresh := (Library.created hc).fresh
    simp [Address.isNull, hfresh] at hnull
  · exact .inr ⟨e, rfl, rfl, hs⟩
  · exact absurd hqv (hno q)
  · have hsome : (w.stored? env native).isSome := Option.isSome_iff_exists.mpr ⟨id, hs'⟩
    exact .inl ⟨_, rfl, Relation.ReflTransGen.trans (Move.known hc hsome (.inl rfl)).path (Move.acquire hl).gains,
      wrap_ok hv he hrun⟩
  · obtain rfl : q = q' := by
      cases parent with
      | none => exact hq.trans hq'.symm
      | some p =>
        obtain ⟨i, _, hi, -, rfl⟩ := hq
        obtain ⟨i', _, hi', -, rfl⟩ := hq'
        exact hi.symm.trans hi'
    have hfits : Fits (Node.wrapping env native kind q true onRelease) w := fits_wrapping hu hq he
    have hm : Move t hs w (w.nodes.next ::ₘ hs)
        (World.grow (Node.wrapping env native kind q true onRelease) { w with library := l }) :=
      .adopt hc hfits rfl rfl rfl
    exact .inl ⟨_, rfl, hm.gains, wrap_ok hv he hrun⟩

variable {β : Type} {out : β → Multiset Nat} {f : Address → Wrapper → Act β}

/-- What goes on with a wrapper that has been made for a new handle. -/
def Wrapper.Continues (t : Terms) (hs : Multiset Nat) (env : Nat) (out : β → Multiset Nat)
    (f : Address → Wrapper → Act β) : Prop :=
  ∀ native h w', w'.Housed env → (∃ id n, h.node = some id ∧ w'.Live id n ∧ n.owned = true) →
    Takes t (h.points + hs) hs out (f native h) w'

/-- Creation of a handle, which is then wrapped. -/
lemma Wrapper.takes_created {a : Address} (parent : Option Wrapper) (q : Option Nat)
    (onRelease : ReleaseAction) (kind : HandleKind) (he : w.Housed env)
    (hq : w.LeadsTo parent q) (ha : a = w.nativeOf q)
    (hk : w.Answers a ∨ a = .null) (hf : Continues t hs env out f) :
    Takes t hs hs out (do
      let native ← Act.require (fun e => e) (Library.create kind a)
      let h ← wrap env native kind parent true onRelease
      f native h) w := by
  intro hw
  rw [run_bind, run_require]
  rcases hc : Library.create kind a w.library with ⟨_ | native, l⟩
  · exact (Move.quiet (Quiet.ofLibrary ((Library.Quiet.create hk hc).trans (.lastError l)))).path
  · subst ha
    obtain ⟨r, w', hrun, hcases⟩ := wrap_created t onRelease hw he hq hc
    dsimp only
    rw [run_bind, hrun]
    obtain ⟨h, rfl, hp, hl⟩ | ⟨e, rfl, rfl, hknown⟩ := hcases
    · exact Relation.ReflTransGen.trans hp (hf native h w' (Path.housed hp hw he) hl (Path.sound hp hw))
    · have hm : Move t hs w hs { w with library := l } := .known hc hknown (.inl rfl)
      exact hm.path

/-- Creation of a handle, which is then adopted. -/
lemma Wrapper.takes_adopted {p : Wrapper} (he : w.Housed env) (hid : p.node = some id) (hl : w.Live id n)
    (hf : Continues t hs env out f) :
    Takes t hs hs out (do
      let native ← Act.require (fun e => e) (Library.create kind n.native)
      let h ← adopt env native kind p onRelease
      f native h) w := by
  intro hw
  obtain ⟨hq, hnat⟩ := World.LeadsTo.nativeOf hid hl
  rw [run_bind, run_require]
  rcases hc : Library.create kind n.native w.library with ⟨_ | native, l⟩
  · exact (Move.quiet (Quiet.ofLibrary ((Library.Quiet.create (.inl ⟨id, n, hl, rfl⟩) hc).trans
      (.lastError l)))).path
  · rw [← hnat] at hc
    obtain ⟨r, w', hrun, hcases⟩ := wrap_created t onRelease hw he hq hc
    dsimp only
    rw [run_bind, adopt, run_tryCatch, hrun]
    obtain ⟨h, rfl, hp, hl⟩ | ⟨e, rfl, rfl, hknown⟩ := hcases
    · exact Relation.ReflTransGen.trans hp (hf native h w' (Path.housed hp hw he) hl (Path.sound hp hw))
    · have hm : Move t hs w hs { w with library := (Library.destroy kind native l).2 } :=
        .known hc hknown (.inr rfl)
      exact hm.path

end DbClient
