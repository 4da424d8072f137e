import EditorClient.Proofs.Account
import EditorClient.Proofs.LinkedObjects

/-! Where the faults of a procedure come from: a call, the logs, or the procedure itself. That something
is missing is no source of faults where everything that is referred to exists. -/

namespace EditorClient

open Procedure

/-- What the logs come to grief with: a directory that is refused for a reason which is none of the
operating system, or a file that cannot be opened. -/
def World.Hinders (w : World) (f : Fault) : Prop :=
  (f.isOs = false ∧ w.logDirectory.refusal = some f) ∨ ∃ r, w.refusal? r = some f

/-- The fault is one of these, or the logs raise it. -/
def Account.Raises (own : Fault → Prop) (a : Account) (f : Fault) : Prop := own f ∨ a.world.Hinders f

/-- Besides, a call may have come to it. -/
def Account.Owes (own : Fault → Prop) (a : Account) (f : Fault) : Prop :=
  a.Raises own f ∨ ∃ x ∈ a.exchanges, x.result = .error f

theorem Account.owes_self {own : Fault → Prop} {a : Account} {f g : Fault} {α : Type} (hf : own f)
    (hg : (.error f : Except Fault α) = .error g) : a.Owes own g :=
  .inl (.inl (by rwa [← Except.error.inj hg]))

/-- A procedure that finds so many objects leaves as many, and if it fails, then with a fault of its
own, of the logs or of one of its calls. -/
abbrev Procedure.Errs {α : Type} (respond : Call → Setting → Except Fault Reply × Setting)
    (own : Fault → Prop) (i k j : Nat) (p : Procedure α) : Prop :=
  p.Traces respond (Account.Raises own) fun a => a.world.Stocked i k j

variable {respond : Call → Setting → Except Fault Reply × Setting} {own : Fault → Prop}
  {i k j : Nat} {α : Type}

theorem Account.raises_of_refusal {a : Account} {r : LogRecord} {f : Fault}
    (h : a.world.refusal? r = some f) : a.Raises own f := .inr (.inr ⟨r, h⟩)

section Small

theorem errs_compositional (respond : Call → Setting → Except Fault Reply × Setting)
    (own : Fault → Prop) (i k j : Nat) : Compositional fun p => p.Errs respond own i k j :=
  traces_compositional _ _ _

theorem errs_throw {f : Fault} (hf : own f) : (throw f : Procedure α).Errs respond own i k j :=
  traces_throw fun _ => .inl hf

theorem errs_change {f : World → World} (hf : ∀ w : World, w.LeavesOwners (f w)) :
    (change f).Errs respond own i k j := traces_change fun a h => h.leavesOwners (hf a.world)

theorem errs_happen (e : Event) : (happen e).Errs respond own i k j :=
  errs_change fun w => w.leavesOwners_happen e

theorem errs_remark (r : Remark) : (remark r).Errs respond own i k j := errs_happen (.remarked r)

theorem errs_post (p : Posting) : (post p).Errs respond own i k j :=
  traces_post (fun a h => h.leavesOwners (World.Alike.post a.world p).leavesOwners)
    (fun _ h => h.happen _) fun _ _ => Account.raises_of_refusal

theorem errs_find {sort : ObjectSort} {objects : World → List α} {m : Nat}
    (hm : ∀ w : World, w.Stocked i k j → m < (objects w).length) :
    (find sort objects m).Errs respond own i k j := by
  intro a ha
  rw [leads_find]
  refine ⟨fun x _ => ⟨ha, by simp⟩, fun hnone => ?_⟩
  have hlt := hm _ ha
  rw [List.getElem?_eq_none_iff] at hnone
  exact absurd hlt (Nat.not_lt.mpr hnone)

theorem errs_findSession {l : Nat} (hl : l < j) : (Session.find l).Errs respond own i k j :=
  errs_find fun _ hw => Nat.lt_of_lt_of_le hl hw.sessions

theorem errs_findController {m : Nat} (hm : m < k) : (Controller.find m).Errs respond own i k j :=
  errs_find fun _ hw => Nat.lt_of_lt_of_le hm hw.controllers

theorem errs_modifySession (l : Nat) (f : Session → Session) :
    (Session.modify l f).Errs respond own i k j :=
  errs_change fun _ => ⟨rfl, rfl, rfl, rfl, rfl, Nat.le_of_eq (List.length_modify ..).symm⟩

theorem errs_modifyController {m : Nat} {f : Controller → Controller}
    (hf : ∀ c l, (f c).session = some l → c.session = some l ∨ l < j) :
    (Controller.modify m f).Errs respond own i k j :=
  traces_change fun _ hw => hw.modifyController fun c l hl =>
    (hf c l hl).imp_right fun hlt => Nat.lt_of_lt_of_le hlt hw.sessions

theorem errs_hold {m : Nat} {held : Option Nat} (hheld : ∀ l, held = some l → l < k) :
    (Bootstrap.hold m held).Errs respond own i k j := traces_change fun _ h =>
  h.hold fun l hl => Nat.lt_of_lt_of_le (hheld l hl) h.controllers

theorem traces_makeLogDirectory : makeLogDirectory.Traces respond
    (fun a f => f.isOs = true ∨ a.Raises own f) fun a => a.world.Stocked i k j := by
  intro a h
  have hasked : (a.update (·.happen .askedLogDirectory)).world.Stocked i k j := h.happen _
  rw [makeLogDirectory, leads_bind, leads_happen, onOk, leads_bind, leads_ask]
  dsimp only [onOk]
  split
  · exact ⟨hasked, by simp⟩
  · rename_i fault hrefused
    refine ⟨hasked, fun f hf => .inl ?_⟩
    obtain rfl := Except.error.inj hf
    cases hos : fault.isOs with
    | true => exact .inl rfl
    | false => exact .inr (.inr (.inl ⟨hos, hrefused⟩))

/-- A directory that is refused by the operating system is done without. -/
theorem errs_openChannel (name : String) : (openChannel name).Errs respond own i k j := by
  have hgood := errs_compositional respond own i k j
  refine hgood.bind (fun _ h => ⟨h, by simp⟩) fun known => ?_
  split
  · exact traces_pure _
  have hhandler : ∀ h, (do
      Procedure.change (addHandler h)
      Procedure.change (setLevel (Logger.channel (channelSlug name)) Level.debug)
      Procedure.remark (.channelFile name h.file) : Procedure Unit).Errs respond own i k j := fun h =>
    hgood.bind (errs_change fun _ => ⟨rfl, rfl, rfl, rfl, rfl, Nat.le_refl _⟩) fun _ =>
      hgood.bind (errs_change fun _ => ⟨rfl, rfl, rfl, rfl, rfl, Nat.le_refl _⟩) fun _ => errs_remark _
  have hattached : (attachFile name (channelSlug name)).Traces respond
      (fun a f => f.isOs = true ∨ a.Raises own f) fun a => a.world.Stocked i k j :=
    (traces_compositional ..).bind traces_makeLogDirectory fun _ =>
      (hhandler _).mono fun _ _ => .inr
  exact hgood.bind (traces_recoverOs hattached fun _ => errs_remark _) fun _ => traces_pure _

end Small

/-- What is true of the objects that there are is true of as many as are needed. -/
theorem World.Stocked.leads {a : Account} {p : Procedure α} (h : a.world.Stocked i k j)
    (hp : p.Errs respond own a.world.bootstraps.length a.world.controllers.length
      a.world.sessions.length) :
    p.Leads (.ofAccounts respond) a fun r a' => a'.world.Stocked i k j ∧
      ∀ f, r = .error f → a'.Owes own f :=
  (hp a (.all h.toLinked)).mono fun _ _ hr =>
    ⟨hr.1.weaken h.bootstraps h.controllers h.sessions, hr.2⟩

section Calls

variable (hstock : ∀ {i k j : Nat} {s : Setting}, s.world.Stocked i k j →
  ∀ c, (respond c s).2.world.Stocked i k j)
include hstock

theorem errs_request (c : Call) : (request c).Errs respond own i k j :=
  traces_request fun _ h => hstock h c

/-- A session that is built is there. -/
theorem leads_buildSession_errs (own : Fault → Prop) {a : Account} (h : a.world.Stocked i k j)
    {t : Transport} (ht : ∀ v, t ≠ .foreign v) (options : SessionOptions) :
    (buildSession t options).Leads (.ofAccounts respond) a
      (onOk (fun l a' => a'.world.Stocked i k j ∧ l < a'.world.sessions.length) fun r a' =>
        ∀ f, r = (.error f : Except Fault Nat) → a'.Owes own f) := by
  obtain ⟨names, hnames⟩ : ∃ names, transportNames t = .ok names := by
    cases t with
    | foreign v => exact absurd rfl (ht v)
    | _ => exact ⟨_, rfl⟩
  have hremarked : (a.update (·.remark (.buildingSession names.1 names.2))).world.Stocked i k j :=
    h.happen _
  have hopened : (openChannel options.channelName).Errs respond own i k j := errs_openChannel _
  rw [buildSession, hnames, leads_bind, leads_ofExcept, onOk, leads_bind, leads_remark, onOk, newSession,
    leads_bind]
  refine (hopened _ hremarked).mono fun r a' hr => ?_
  obtain ⟨h', hfault⟩ := hr
  cases r with
  | error f => exact fun g hg => hfault g (congrArg _ (Except.error.inj hg))
  | ok slug =>
    rw [onOk, leads_bind]
    have hmade : (request (.makeClient slug)).Errs respond own i k j := errs_request hstock _
    refine (hmade a' h').mono fun r a' hr => ?_
    obtain ⟨h', hfault⟩ := hr
    cases r with
    | error f => exact fun g hg => hfault g (congrArg _ (Except.error.inj hg))
    | ok reply =>
    let x : Session := ⟨names.1, t, options, slug, none, false, false, false, 0⟩
    have hlength : (addSession x a'.world).sessions.length = a'.world.sessions.length + 1 :=
      List.length_append
    have hadded := h'.leavesOwners (a'.world.leavesOwners_addSession x)
    refine ⟨hadded.happen (.madeClient a'.world.sessions.length), ?_⟩
    exact Nat.lt_of_lt_of_eq (Nat.lt_succ_self _) hlength.symm

theorem errs_notify {n : Notifier} (hn : n ≠ .absent) (notice : Notice) :
    (n.notify notice).Errs respond own i k j := by
  cases n with
  | host => exact (errs_compositional ..).bind (errs_request hstock _) fun _ => traces_pure ()
  | log logger => exact errs_post _
  | absent => exact absurd rfl hn

theorem errs_succeeds (program : String) (args : List String) :
    (succeeds program args).Errs respond own i k j := by
  have hgood := errs_compositional respond own i k j
  refine hgood.recoverOs (hgood.bind (hgood.bind (errs_remark _) fun _ =>
    hgood.bind (errs_request hstock _) fun reply => ?_) fun _ => traces_pure _) fun _ =>
      hgood.bind (errs_remark _) fun _ => traces_pure _
  have hexited : ∀ code, (do
      Procedure.remark (.commandExited program code)
      pure code : Procedure Int).Errs respond own i k j := fun code =>
    hgood.bind (errs_remark _) fun _ => traces_pure _
  dsimp only
  split
  · exact hgood.bind (errs_remark _) fun _ => hexited _
  · exact hexited _

theorem errs_ensureDependency {n : Notifier} (hn : n ≠ .absent)
    (hown : ∀ result, own (.notInstalled result)) (interpreter module : String) :
    (ensureDependency interpreter module n).Errs respond own i k j := by
  have hgood := errs_compositional respond own i k j
  have hnotify : ∀ notice, (n.notify notice).Errs respond own i k j := errs_notify hstock hn
  refine hgood.bind (errs_succeeds hstock _ _) fun present => ?_
  cases present with
  | true => exact hgood.bind (errs_remark _) fun _ => traces_pure _
  | false =>
    refine hgood.bind (errs_remark _) fun _ => hgood.bind (hnotify _) fun _ =>
      hgood.bind (errs_succeeds hstock _ _) fun installed => ?_
    cases installed with
    | true => exact hgood.bind (errs_remark _) fun _ => hgood.bind (hnotify _) fun _ => traces_pure _
    | false =>
      exact hgood.bind (errs_remark _) fun _ => hgood.bind (hnotify _) fun _ => errs_throw (hown _)

namespace Session

variable {l : Nat}

theorem errs_ask (r : Request) : (request l r).Errs respond own i k j :=
  (errs_compositional ..).bind (errs_request hstock _) fun _ => traces_pure ()

theorem errs_stop (hl : l < j) : (stop l).Errs respond own i k j := by
  have hgood := errs_compositional respond own i k j
  have hask : ∀ r, (request l r).Errs respond own i k j := errs_ask hstock
  refine hgood.bind (errs_findSession hl) fun s => ?_
  split
  · exact traces_pure ()
  have hclose : (closeWriter l).Errs respond own i k j := by
    refine hgood.bind (errs_findSession hl) fun s => ?_
    split
    · exact hgood.bind (errs_request hstock _) fun _ => errs_modifySession l _
    · exact traces_pure ()
  have hrest : (do
      closeWriter l
      request l (.stop (← find l).tasks)
      Procedure.post (.sessionStopped s.slug s.name) : Procedure Unit).Errs respond own i k j :=
    hgood.bind hclose fun _ => hgood.bind (errs_findSession hl) fun _ =>
      hgood.bind (hask _) fun _ => errs_post _
  refine hgood.bind (errs_modifySession l _) fun _ => ?_
  dsimp only
  split
  · exact hgood.bind (hgood.recoverOrdinary (hgood.bind (hask _) fun _ => hask _) fun _ =>
      errs_remark _) fun _ => hrest
  · exact hrest

theorem errs_openTransport (hown : ∀ f : Fault, f.isOrdinary = true → own f) (t : Transport) :
    (openTransport l t).Errs respond own i k j := by
  have hgood := errs_compositional respond own i k j
  cases t with
  | socket host port =>
    refine hgood.bind (hgood.bind (hgood.recoverOs (errs_request hstock _) fun f =>
      hgood.bind (errs_remark _) fun _ => errs_throw (hown _ rfl)) fun _ =>
        hgood.bind (errs_change fun _ => ⟨rfl, rfl, rfl, rfl, rfl, Nat.le_refl _⟩) fun _ =>
          hgood.bind (fun _ h => ⟨h, by simp⟩) fun n => hgood.bind (errs_remark _) fun _ =>
            traces_pure n) fun n => ?_
    exact hgood.bind (errs_modifySession l _) fun _ => hgood.bind (errs_request hstock _) fun _ =>
      hgood.bind (errs_request hstock _) fun _ => errs_modifySession l _
  | spawn command args directory =>
    exact hgood.recoverOs (errs_ask hstock _) fun _ => errs_throw (hown _ rfl)
  | foreign v => exact errs_throw (hown _ rfl)

/-- What goes wrong in a start is ordinary. -/
theorem errs_start (hl : l < j) (hown : ∀ f : Fault, f.isOrdinary = true → own f) :
    (start l).Errs respond own i k j := by
  have hgood := errs_compositional respond own i k j
  refine hgood.bind (errs_findSession hl) fun s => ?_
  have hhandshake : (handshake l s.name).Errs respond own i k j :=
    hgood.recoverOrdinary (hgood.bind (errs_ask hstock _) fun _ => errs_ask hstock _) fun _ =>
      errs_throw (hown _ rfl)
  dsimp only
  split
  · exact errs_throw (hown _ rfl)
  · exact hgood.bind (errs_modifySession l _) fun _ =>
      hgood.bind (errs_openTransport hstock hown _) fun _ => hgood.bind hhandshake fun _ =>
        hgood.bind (errs_modifySession l _) fun _ => errs_post _

end Session

namespace Controller

variable {m l : Nat}

omit hstock in
theorem errs_callSession {p : Procedure Unit} (hp : p.Errs respond own i k j) (m : Nat)
    (c : SessionCall) : (do
      change (·.callSession m c)
      p : Procedure Unit).Errs respond own i k j :=
  (errs_compositional ..).bind (traces_change fun _ h => h.of_eq rfl rfl rfl) fun _ => hp

theorem errs_startFailed (hm : m < k) (hl : l < j) (name : Value) (fault : Fault) :
    (startFailed m l name fault).Errs respond own i k j := by
  have hgood := errs_compositional respond own i k j
  have hrelease : (release m l).Errs respond own i k j :=
    hgood.recoverOrdinary (errs_callSession (Session.errs_stop hstock hl) m _) fun _ => errs_remark _
  refine hgood.bind (errs_modifyController fun _ _ => .inl) fun _ =>
    hgood.bind (errs_remark _) fun _ => hgood.bind (errs_findController hm) fun c =>
      hgood.bind ?_ fun _ => hrelease
  unfold notifyFailure
  split
  · exact traces_pure ()
  · rename_i hn
    exact errs_notify hstock hn _

/-- A start that fails for an ordinary reason is over with that. -/
theorem leads_start_errs (own : Fault → Prop) {a : Account} {c : Controller} (h : a.world.Stocked i k j)
    (hc : a.world.controllers[m]? = some c) (hunstarted : c.state = .unstarted) (hm : m < k)
    (hl : l < j) (context : Nat) :
    (start m l context).Leads (.ofAccounts respond) a fun r a' =>
      a'.world.Stocked i k j ∧ ∀ f, r = .error f → a'.Owes own f := by
  have hgood := errs_compositional respond own i k j
  have hstarting : (modify m fun c => { c with state := .starting }).Errs respond own i k j :=
    errs_modifyController fun _ _ => .inl
  have hstarted : (do
      startSession m l
      pure true : Procedure Bool).Errs respond (fun f => f.isOrdinary = true ∨ own f) i k j :=
    (errs_compositional ..).bind
      (errs_callSession (Session.errs_start hstock hl fun _ => .inl) m (.start l)) fun _ =>
        traces_pure true
  rw [start, find, leads_find_bind hc]
  dsimp only
  rw [if_neg (by simp [hunstarted])]
  refine hgood.bind hstarting (fun _ => hgood.bind (errs_findSession hl) fun s =>
    hgood.bind (errs_remark _) fun _ => hgood.bind (traces_recoverOrdinary
      (hstarted.mono fun _ _ => or_assoc.mp) fun f =>
        hgood.bind (errs_startFailed hstock hm hl _ f) fun _ => traces_pure false) fun started => ?_) a h
  split
  · have hregister : (change (addSubscription (.stopController m) context)).Errs respond own i k j :=
      traces_change fun _ h => h.of_eq rfl rfl rfl
    refine hgood.bind (errs_modifyController fun c l' hl' => .inr ?_) fun _ =>
      hgood.bind hregister fun _ => hgood.bind (errs_remark _) fun _ => traces_pure _
    exact Option.some.inj hl' ▸ hl
  · exact traces_pure _

/-- What the controller holds when it is stopped is there to be stopped. -/
theorem errs_stop (hm : m < k) : (stop m).Errs respond own i k j := by
  intro a h
  have hlt : m < a.world.controllers.length := Nat.lt_of_lt_of_le hm h.controllers
  rw [stop, find, leads_find_bind (List.getElem?_eq_getElem hlt)]
  split
  · rename_i l _ hheld
    have hl : l < a.world.sessions.length := h.session _ (List.getElem_mem hlt) l hheld
    have hgood := errs_compositional respond own a.world.bootstraps.length
      a.world.controllers.length a.world.sessions.length
    exact h.leads (hgood.bind (errs_modifyController fun _ _ hnone => by cases hnone) fun _ =>
      hgood.bind (errs_findSession hl) fun _ => hgood.bind (errs_remark _) fun _ =>
        errs_callSession (Session.errs_stop hstock hl) m _)
  · exact errs_remark _ a h

end Controller

namespace Bootstrap

variable {m : Nat}

theorem errs_deactivate (hm : m < i) : (deactivate m).Errs respond own i k j := by
  intro a h
  have hlt : m < a.world.bootstraps.length := Nat.lt_of_lt_of_le hm h.bootstraps
  rw [deactivate, find, leads_find_bind (List.getElem?_eq_getElem hlt)]
  split
  · exact ⟨h, by simp⟩
  · rename_i l hheld
    have hl : l < a.world.controllers.length := h.controller _ (List.getElem_mem hlt) l hheld
    exact h.leads ((errs_compositional ..).bind (errs_hold nofun) fun _ =>
      Controller.errs_stop hstock hl)

theorem errs_replacePrevious (hm : m < i) : (replacePrevious m).Errs respond own i k j := by
  have hgood := errs_compositional respond own i k j
  refine hgood.bind (errs_find fun _ hw => Nat.lt_of_lt_of_le hm hw.bootstraps) fun b => ?_
  split
  · exact hgood.bind (errs_remark _) fun _ => errs_deactivate hstock hm
  · exact traces_pure ()

end Bootstrap

end Calls

end EditorClient
