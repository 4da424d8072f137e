import EditorClient.Proofs.Bookkeeping
import EditorClient.Proofs.Interruption

/-! The disposal of a context, whatever its disposables do meanwhile. They may put in others, take some
out, dispose of any of them and of the context itself. -/

namespace EditorClient

open Procedure

namespace Context

variable {respond : Call → Setting → Except Fault Reply × Setting} {s : Setting} {n i : Nat}

def disposeLast (i d : Nat) : Procedure Unit := do
  modify i fun c => { c with subscriptions := c.subscriptions.dropLast }
  disposeSubscription d

def disposeInTurn (i : Nat) (ds : List Nat) : Procedure Unit := ds.forM (disposeLast i)

theorem dispose_of_none {c : Context} (hc : s.world.contexts[i]? = some c)
    (hnone : c.subscriptions = []) :
    (dispose n i).run respond s = (.ok (), s) ∧ (dispose n i).deeds respond s = [] := by
  have hlead : (dispose n i).Leads (.ofAccounts respond) ⟨s, []⟩ fun r a =>
      (r, a.setting) = (.ok (), s) ∧ a.deeds = [] := by
    cases n <;>
    · rw [dispose, find, Procedure.leads_find_bind hc, hnone]
      exact ⟨rfl, rfl⟩
  exact (leads_runs _ _ _).mp hlead

theorem dispose_of_some (respond : Call → Setting → Except Fault Reply × Setting) (n : Nat)
    {c : Context} {d : Nat} (hc : s.world.contexts[i]? = some c)
    (hd : c.subscriptions.getLast? = some d) :
    (dispose (n + 1) i).run respond s = (disposeLast i d >>= fun _ => dispose n i).run respond s ∧
      (dispose (n + 1) i).deeds respond s =
        (disposeLast i d >>= fun _ => dispose n i).deeds respond s := by
  have hlead : (dispose (n + 1) i).Leads (.ofAccounts respond) ⟨s, []⟩ fun r a =>
      (r, a.setting) = (disposeLast i d >>= fun _ => dispose n i).run respond s ∧
        a.deeds = (disposeLast i d >>= fun _ => dispose n i).deeds respond s := by
    rw [dispose, find, Procedure.leads_find_bind hc, hd]
    exact (leads_runs _ _ _).mpr ⟨rfl, rfl⟩
  exact (leads_runs _ _ _).mp hlead

theorem yields_dispose (respond : Call → Setting → Except Fault Reply × Setting) (n i : Nat)
    (a : Account) : (dispose n i).Yields (.ofAccounts respond) a
      fun _ a' => a'.world.subscriptions i = [] := by
  induction n generalizing a with
  | zero =>
    unfold dispose
    rw [Yields, leads_bind, find, leads_find]
    refine ⟨fun c hc => ?_, fun _ _ hr => by cases hr⟩
    dsimp only [onOk]
    split
    · rename_i hnone
      exact yields_pure ((World.subscriptions_of_some hc).trans (List.getLast?_eq_none_iff.mp hnone))
    · exact yields_throw _
  | succ n ih =>
    unfold dispose
    rw [Yields, leads_bind, find, leads_find]
    refine ⟨fun c hc => ?_, fun _ _ hr => by cases hr⟩
    dsimp only [onOk]
    split
    · rename_i hnone
      exact yields_pure ((World.subscriptions_of_some hc).trans (List.getLast?_eq_none_iff.mp hnone))
    · rw [leads_bind, modify, leads_change]
      exact (yields_true _ _).bind fun _ a' _ => ih a'

end Context

/-- If no call changes the contexts, these are what they are. -/
def Account.KeepsContexts (cs : List Context) (a : Account) : Prop :=
  (∀ x ∈ a.exchanges, x.after.world.contexts = x.before.world.contexts) → a.world.contexts = cs

namespace Account.KeepsContexts

variable {respond : Call → Setting → Except Fault Reply × Setting} {a : Account} {cs : List Context}

theorem update (h : a.KeepsContexts cs) {f : World → World}
    (hf : (f a.world).contexts = a.world.contexts) : (a.update f).KeepsContexts cs := by
  intro hx
  rw [exchanges_update] at hx
  rw [world_update, hf]
  exact h hx

theorem exchange (h : a.KeepsContexts cs) (c : Call) : (a.exchange respond c).KeepsContexts cs := by
  intro hx
  rw [exchanges_exchange] at hx
  have hmade := hx (a.made respond c) (by simp)
  rw [world_exchange]
  exact hmade.trans (h fun x hmem => hx x (List.mem_append_left _ hmem))

theorem ownerless (respond : Call → Setting → Except Fault Reply × Setting) (cs : List Context) :
    Ownerless fun p => p.Maintains (.ofAccounts respond) (Account.KeepsContexts cs) where
  toCompositional := maintains_compositional _ _
  quiet := fun hp => hp.maintains (fun _ _ hf h => h.update hf.contexts)
    fun c _ _ h => (leads_request c _).mpr (h.exchange c)
  request := fun c _ _ h => (leads_request c _).mpr (h.exchange c)
  apart := fun _ hf _ h => h.update (hf _).contexts

theorem disposeSubscription (cs : List Context) (d : Nat) :
    (Context.disposeSubscription d).Maintains (.ofAccounts respond) (Account.KeepsContexts cs) := by
  have hgood := ownerless respond cs
  have hact := hgood.act (fun _ _ _ h => (leads_request _ _).mpr (h.exchange _))
    (hgood.stopController (fun _ _ _ h => h.update rfl) fun _ _ _ h => h.update rfl)
  exact hgood.recoverOrdinary (hgood.dispose (fun _ _ h => h.update rfl) hact d) fun _ =>
    hgood.remark _

end Account.KeepsContexts

namespace Context

variable {respond : Call → Setting → Except Fault Reply × Setting} {s t : Setting} {n i : Nat}

theorem contexts_of_disposeLast {d : Nat} {r : Except Fault Unit}
    (h : (disposeLast i d).run respond s = (r, t))
    (hx : ∀ x, .exchange x ∈ (disposeLast i d).deeds respond s →
      x.after.world.contexts = x.before.world.contexts) :
    t.world.contexts =
      s.world.contexts.modify i fun c => { c with subscriptions := c.subscriptions.dropLast } := by
  have hlead : (disposeLast i d).Leads (.ofAccounts respond) ⟨s, []⟩ fun _ a =>
      a.KeepsContexts (s.world.contexts.modify i fun c =>
        { c with subscriptions := c.subscriptions.dropLast }) := by
    rw [disposeLast, leads_bind, modify, leads_change]
    exact Account.KeepsContexts.disposeSubscription _ d _ fun _ => rfl
  rw [leads_runs, h] at hlead
  exact hlead fun x hmem => hx x (Account.mem_exchanges.mp hmem)

/-- When nobody changes the contexts meanwhile, the last is disposed of first. -/
theorem dispose_eq_disposeInTurn {c : Context} (hc : s.world.contexts[i]? = some c)
    (hn : c.subscriptions.length ≤ n)
    (hx : ∀ x, .exchange x ∈ (dispose n i).deeds respond s →
      x.after.world.contexts = x.before.world.contexts) :
    (dispose n i).run respond s = (disposeInTurn i c.subscriptions.reverse).run respond s ∧
      (dispose n i).deeds respond s =
        (disposeInTurn i c.subscriptions.reverse).deeds respond s := by
  induction n generalizing s c with
  | zero =>
    have hnil : c.subscriptions = [] := List.eq_nil_of_length_eq_zero (Nat.le_zero.mp hn)
    rw [hnil]
    exact dispose_of_none hc hnil
  | succ n ih =>
    rcases List.eq_nil_or_concat c.subscriptions with hnil | ⟨l, d, hl⟩
    · rw [hnil]
      exact dispose_of_none hc hnil
    rw [List.concat_eq_append] at hl
    obtain ⟨hrun, hdeeds⟩ := dispose_of_some respond n hc
      (List.getLast?_eq_some_iff.mpr ⟨l, hl⟩)
    have hturn : disposeInTurn i c.subscriptions.reverse =
        disposeLast i d >>= fun _ => disposeInTurn i l.reverse := by
      rw [hl, List.reverse_concat]
      rfl
    -- both do the same with the last; if that fails both end, else the rest is left to the induction
    rw [hrun, hdeeds, hturn, run_bind, run_bind]
    rw [hdeeds] at hx
    cases hlast : (disposeLast i d).run respond s with
    | mk r t =>
      cases r with
      | error f =>
        rw [deeds_bind_of_error hlast, deeds_bind_of_error hlast]
        exact ⟨rfl, rfl⟩
      | ok u =>
        rw [deeds_bind_of_ok hlast] at hx ⊢
        rw [deeds_bind_of_ok hlast]
        have hcontexts := contexts_of_disposeLast hlast fun x hmem =>
          hx x (List.mem_append_left _ hmem)
        have hleft : t.world.contexts[i]? = some { c with subscriptions := l } := by
          rw [hcontexts, getElem?_modify_self _ hc, hl, List.dropLast_concat]
        have hlength : l.length ≤ n := by
          rw [hl, List.length_append, List.length_singleton] at hn
          omega
        obtain ⟨hrun', hdeeds'⟩ := ih hleft hlength fun x hmem => hx x (List.mem_append_right _ hmem)
        exact ⟨hrun', congrArg _ hdeeds'⟩

end Context

namespace Disposable

variable {respond : Call → Setting → Except Fault Reply × Setting} {s : Setting} {d : Nat}

theorem dispose_of_disposed {x : Disposable} (hx : s.world.disposables[d]? = some x)
    (hdisposed : x.disposed = true) :
    (dispose d).run respond s = (.ok (), s) ∧ (dispose d).deeds respond s = [] := by
  have hlead : (dispose d).Leads (.ofAccounts respond) ⟨s, []⟩ fun r a =>
      (r, a.setting) = (.ok (), s) ∧ a.deeds = [] := by
    rw [dispose, find, Procedure.leads_find_bind hx, if_pos hdisposed]
    exact ⟨rfl, rfl⟩
  exact (leads_runs _ _ _).mp hlead

theorem dispose_of_undisposed {x : Disposable} (hx : s.world.disposables[d]? = some x)
    (hundisposed : x.disposed = false) :
    let marked : Setting := { s with world := s.world.mark d }
    (dispose d).run respond s = (act x.action).run respond marked ∧
      (dispose d).deeds respond s =
        .update s.world marked.world :: (act x.action).deeds respond marked := by
  intro marked
  have hlead : (dispose d).Leads (.ofAccounts respond) ⟨s, []⟩ fun r a =>
      (r, a.setting) = (act x.action).run respond marked ∧
        a.deeds = .update s.world marked.world :: (act x.action).deeds respond marked := by
    rw [dispose, find, Procedure.leads_find_bind hx, if_neg (by simp [hundisposed]), leads_bind,
      leads_change]
    exact (leads_accounts _ _ _).mpr ⟨rfl, rfl⟩
  exact (leads_runs _ _ _).mp hlead

end Disposable

/-- An action is called right after its disposable, till then not disposed of, has been marked. -/
def Deed.Licensed (ds : List Deed) : Prop :=
  ∀ before x after name reaction, ds = before ++ .exchange x :: after → x.call = .act name reaction →
    ∃ earlier w d, before = earlier ++ [.update w x.before.world] ∧ x.before.world = w.mark d ∧
      w.disposables[d]? = some ⟨.scripted name reaction, false⟩

namespace Deed.Licensed

variable {ds : List Deed} {respond : Call → Setting → Except Fault Reply × Setting}

theorem concat (h : Licensed ds) {y : Deed} (hy : ∀ x name reaction, y = .exchange x →
      x.call = .act name reaction → ∃ earlier w d, ds = earlier ++ [.update w x.before.world] ∧
        x.before.world = w.mark d ∧ w.disposables[d]? = some ⟨.scripted name reaction, false⟩) :
    Licensed (ds ++ [y]) := by
  intro before x after name reaction hds hx
  rcases List.eq_nil_or_concat after with rfl | ⟨after, z, rfl⟩
  · obtain ⟨rfl, hlast⟩ := List.append_inj' hds rfl
    exact hy x name reaction (List.singleton_inj.mp hlast) hx
  · rw [List.concat_eq_append, ← List.cons_append, ← List.append_assoc] at hds
    exact h before x after name reaction (List.append_inj' hds rfl).1 hx

theorem change (f : World → World) :
    (Procedure.change f).Maintains (.ofAccounts respond) fun a => Licensed a.deeds :=
  fun a h => h.concat (y := .update a.world (f a.world)) fun _ _ _ hx => Deed.noConfusion hx

theorem request {c : Call} (hc : c.isAction = false) :
    (Procedure.request c).Maintains (.ofAccounts respond) fun a => Licensed a.deeds := by
  refine fun a h => (leads_request c _).mpr (h.concat fun x name reaction hx hact => ?_)
  obtain rfl : a.made respond c = x := Deed.exchange.inj hx
  obtain rfl : c = .act name reaction := hact
  cases hc

theorem ownerless (respond : Call → Setting → Except Fault Reply × Setting) :
    Ownerless fun p => p.Maintains (.ofAccounts respond) fun a => Licensed a.deeds where
  toCompositional := maintains_compositional _ _
  quiet := fun hp => hp.maintains (fun _ f _ h => change f _ h) fun c hc => request (by
    simp only [Call.isUsual, Bool.and_eq_true, Bool.not_eq_true'] at hc
    exact hc.2)
  request := fun _ hc => request hc
  apart := fun f _ => change f

theorem dispose (d : Nat) : (Disposable.dispose d).Maintains (.ofAccounts respond)
    fun a => Licensed a.deeds := by
  have hgood := ownerless respond
  intro a h
  rw [Disposable.dispose, leads_bind, Disposable.find, leads_find]
  refine ⟨fun x hx => ?_, fun _ => h⟩
  obtain ⟨action, disposed⟩ := x
  cases disposed with
  | true => exact h
  | false =>
    have hmark : (Procedure.change (World.mark d)).Maintains (.ofAccounts respond) fun a =>
      Licensed a.deeds := change _
    have hmarked : Licensed (a.update (World.mark d)).deeds := hmark a h
    dsimp only [onOk]
    rw [if_neg (by simp), leads_bind, leads_change]
    cases action with
    | stopController k =>
      exact hgood.stopController (fun _ _ => change _) (fun _ _ => change _) k _ hmarked
    | scripted name reaction =>
      have hacted : Licensed ((a.update (World.mark d)).exchange respond (.act name reaction)).deeds := by
        refine hmarked.concat fun x name' reaction' hmade hcall => ?_
        obtain rfl := Deed.exchange.inj hmade
        cases hcall
        exact ⟨a.deeds, a.world, d, rfl, rfl, hx⟩
      exact Leads.bind_maintains (P := fun a : Account => Licensed a.deeds)
        ((leads_request _ _).mpr hacted)
        fun _ => hgood.pure ()

theorem ownerwise (respond : Call → Setting → Except Fault Reply × Setting) :
    Ownerwise fun p => p.Maintains (.ofAccounts respond) fun a => Licensed a.deeds :=
  have hgood := ownerless respond
  have hnew := hgood.newController fun _ => change _
  have hstart := hgood.startController (fun _ _ => change _) (fun _ _ => change _) fun _ _ => change _
  have hstop := hgood.stopController (fun _ _ => change _) fun _ _ => change _
  { toOwnerless := hgood
    newContext := fun _ _ => change _
    newBootstrap := fun _ => change _
    activate := hgood.activate hnew hstart hstop fun _ _ => change _
    deactivate := hgood.deactivate hstop fun _ => change _
    newController := hnew
    startController := hstart
    stopController := hstop
    dispose := dispose
    disposeContext := hgood.disposeContext (fun _ => change _) dispose
    subscribe := hgood.subscribe (fun _ _ => change _) fun _ _ => change _ }

theorem of_maintains {α : Type} {p : Procedure α}
    (h : p.Maintains (.ofAccounts respond) fun a => Licensed a.deeds) (s : Setting) :
    Licensed (p.deeds respond s) :=
  (leads_runs _ _ _).mp (h ⟨s, []⟩ fun before _ _ _ _ hnil => by simp at hnil)

end Deed.Licensed

namespace World

def Disposes (ws : List World) (d m : Nat) : Prop :=
  ∃ w w', ws[m]? = some w ∧ ws[m + 1]? = some w' ∧ ¬w.IsDisposed d ∧ w'.IsDisposed d

theorem disposes_unique {ws : List World} (h : ws.IsChain Shifts) {d m m' : Nat}
    (hm : Disposes ws d m) (hm' : Disposes ws d m') : m = m' := by
  have hnot : ∀ {m m'}, Disposes ws d m → Disposes ws d m' → ¬m < m' := by
    rintro m m' ⟨_, w', _, hw', _, hdisposed⟩ ⟨v, _, hv, _, hundisposed, _⟩ hlt
    exact hundisposed (rel_of_isChain (R := fun w w' => w.IsDisposed d → w'.IsDisposed d)
      (fun _ => id) (fun h h' => h' ∘ h) (h.imp fun _ _ hshifts => hshifts.disposed d) hlt hw' hv
      hdisposed)
  exact Nat.le_antisymm (Nat.le_of_not_lt (hnot hm' hm)) (Nat.le_of_not_lt (hnot hm hm'))

end World

/-- What a disposable does in a setting: it acts if it has not been disposed of, and is marked first. -/
structure Disposable.Disciplined (respond : Call → Setting → Except Fault Reply × Setting) (d : Nat)
    (s : Setting) : Prop where
  idles : ∀ {x}, s.world.disposables[d]? = some x → x.disposed = true →
    (dispose d).run respond s = (.ok (), s) ∧ (dispose d).deeds respond s = []
  acts : ∀ {x}, s.world.disposables[d]? = some x → x.disposed = false →
    let marked : Setting := { s with world := s.world.mark d }
    (dispose d).run respond s = (act x.action).run respond marked ∧
      (dispose d).deeds respond s =
        .update s.world marked.world :: (act x.action).deeds respond marked

namespace Context

/-- The books of a context over the worlds of a disposal. -/
structure Drained (i : Nat) (s : Setting) (later : List World) (r : Except Fault Unit × Setting) :
    Prop where
  last : later.getLastD s.world = r.2.world
  shifts : (s.world :: later).IsChain World.Shifts
  balance : (s.world.subscriptions i ++ Ledger.putIn ((s.world :: later).map (·.subscriptions i))).Perm
    (r.2.world.subscriptions i ++ Ledger.takenOut ((s.world :: later).map (·.subscriptions i)))
  remaining : (r.2.world.subscriptions i).Sublist
    (s.world.subscriptions i ++ Ledger.putIn ((s.world :: later).map (·.subscriptions i)))
  reversed : Ledger.putIn ((s.world :: later).map (·.subscriptions i)) = [] →
    s.world.subscriptions i = r.2.world.subscriptions i ++
      (Ledger.takenOut ((s.world :: later).map (·.subscriptions i))).reverse
  disposed : ∀ d ∈ Ledger.takenOut ((s.world :: later).map (·.subscriptions i)),
    r.2.world.IsDisposed d
  once : ∀ d m m', World.Disposes (s.world :: later) d m → World.Disposes (s.world :: later) d m' →
    m = m'
  emptied : r.1 = .ok () → r.2.world.subscriptions i = []
  listed : r.2.world.Listed

/-- What a disposal does by itself. -/
structure Drains (n i : Nat) (respond : Call → Setting → Except Fault Reply × Setting) (s : Setting) :
    Prop where
  interrupted : ∀ x ∈ (dispose n i).exchanges respond s, ∀ f, x.result = .error f →
    f.isOrdinary = false → ((dispose n i).run respond s).1 = .error f ∧
      ((dispose n i).run respond s).2.world = x.after.world
  inTurn : ∀ c, s.world.contexts[i]? = some c → c.subscriptions.length ≤ n →
    (∀ x ∈ (dispose n i).exchanges respond s,
      x.after.world.contexts = x.before.world.contexts) →
    (dispose n i).run respond s = (disposeInTurn i c.subscriptions.reverse).run respond s ∧
      (dispose n i).deeds respond s = (disposeInTurn i c.subscriptions.reverse).deeds respond s
  licensed : Deed.Licensed ((dispose n i).deeds respond s)

theorem drains (n i : Nat) (respond : Call → Setting → Except Fault Reply × Setting) (s : Setting) :
    Drains n i respond s where
  interrupted := by
    intro x hx f hf hord
    rw [← exchanges_deeds _ s s] at hx
    exact ((interruptible_dispose n i).ends (Account.mem_exchanges.mp hx) hf hord).1
  inTurn := by
    intro c hc hn hx
    refine dispose_eq_disposeInTurn hc hn fun x hmem => hx x ?_
    rw [← exchanges_deeds _ s s]
    exact Account.mem_exchanges.mpr hmem
  licensed := .of_maintains ((Deed.Licensed.ownerwise respond).disposeContext n i) s

theorem drained (limit depth n i : Nat) (s : Setting) (hs : s.world.Listed) :
    Drained i s ((dispose n i).nestedWorlds limit depth s)
      ((dispose n i).run (Call.respond (Step.leave limit depth)) s) := by
  generalize hlater : (dispose n i).nestedWorlds limit depth s = later
  generalize hr : (dispose n i).run (Call.respond (Step.leave limit depth)) s = r
  have hbooked : Trail.Booked i none ⟨s.world, later⟩ ∧ Trail.world ⟨s.world, later⟩ = r.2.world := by
    rw [← hlater, ← hr]
    exact (Step.books_contract limit i).run depth
      (booking_disposeContext n i ⟨s.world, []⟩ (.start hs rfl)) rfl
  obtain ⟨hbooked, hworld⟩ := hbooked
  have hlast : later.getLastD s.world = r.2.world := hworld
  have hlists : (s.world.subscriptions i :: later.map (·.subscriptions i)).IsChain Shift :=
    List.isChain_map_of_isChain (f := (·.subscriptions i)) (fun _ _ h => h.lists i) hbooked.goes
  have hend : (later.map (·.subscriptions i)).getLastD (s.world.subscriptions i) =
      r.2.world.subscriptions i := by
    rw [← hlast, List.getLastD_eq_getLast?, List.getLastD_eq_getLast?, List.getLast?_map]
    cases later.getLast? <;> rfl
  exact {
    last := hlast
    shifts := hbooked.goes
    balance := hend ▸ Ledger.perm hlists
    remaining := hend ▸ Ledger.sublist hlists
    reversed := fun hput => hend ▸ Ledger.eq_reverse hlists hput
    disposed := fun d hd => hworld ▸ (hbooked.disposed d hd).resolve_right nofun
    once := fun d m m' => World.disposes_unique hbooked.goes
    emptied := fun hok => by
      have hyields := (leads_runs _ s _).mp
        (yields_dispose (Call.respond (Step.leave limit depth)) n i ⟨s, []⟩)
      rw [hr] at hyields
      exact hyields () hok
    listed := hworld ▸ hbooked.listed }

/-- However the disposables act, a disposal loses no subscription and takes none out twice, and what it
leaves a second one takes up. -/
theorem dispose_drains (limit depth n i : Nat) (s : Setting) (hs : s.world.Listed) :
    let respond := Call.respond (Step.leave limit depth)
    let r := (dispose n i).run respond s
    (Drained i s ((dispose n i).nestedWorlds limit depth s) r ∧ Drains n i respond s) ∧
      (∀ m, Drained i r.2 ((dispose m i).nestedWorlds limit depth r.2) ((dispose m i).run respond r.2) ∧
        Drains m i respond r.2) ∧
      (∀ d t, Disposable.Disciplined respond d t) ∧
      ∀ (step : Step) respond t, Deed.Licensed ((step.procedure limit).deeds respond t) := by
  intro respond r
  have hfirst := drained limit depth n i s hs
  refine ⟨⟨hfirst, drains n i respond s⟩, fun m => ⟨drained limit depth m i r.2 hfirst.listed,
    drains m i respond r.2⟩, fun d t => ?_, fun step respond t => ?_⟩
  · exact ⟨Disposable.dispose_of_disposed, Disposable.dispose_of_undisposed⟩
  · exact .of_maintains ((Deed.Licensed.ownerwise respond).procedure limit step) t

/-- The last of two disposables puts in another, which is cancelled. -/
def rejoinedSetting : Setting :=
  Step.leaveAll 9 9
    [.newContext (.path ⟨.none, []⟩) (.member (.text "development")) .null .host,
      .subscribe "first" .plain (some 1),
      .subscribe "last" (.mk [.subscribe "late" (.mk [] (some (.raised .cancelled "")) 0 []) (some 1)]
        none 0 []) (some 1)]
    (.unlogged .empty)

theorem dispose_rejoined :
    let respond := Call.respond (Step.leave 9 9)
    let r := (dispose 9 0).run respond rejoinedSetting
    rejoinedSetting.world.subscriptions 0 = [0, 1] ∧ r.2.world.subscriptions 0 = [0] ∧
      r.2.world.disposables.map (·.disposed) = [false, true, true] ∧
      (Drained 0 rejoinedSetting ((dispose 9 0).nestedWorlds 9 9 rejoinedSetting) r ∧
        Drains 9 0 respond rejoinedSetting) ∧
      ((dispose 9 0).run respond r.2).2.world.subscriptions 0 = [] := by
  intro respond r
  have hlisted : rejoinedSetting.world.Listed := Step.listed_leaveAll 9 9 "" _ .empty _
  exact ⟨by decide +kernel, by decide +kernel, by decide +kernel,
    (dispose_drains 9 9 9 0 rejoinedSetting hlisted).1, by decide +kernel⟩

end Context

end EditorClient
