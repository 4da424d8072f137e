import EditorClient.Proofs.CheckedServer
import EditorClient.Proofs.DebuggedClient
import EditorClient.Proofs.FaultSource

/-! What comes of bad settings. An activation reports them as faults of the configuration, apart from one
sort of them: an interpreter that is set to something other than a text. -/

namespace EditorClient

open Procedure

/-- The settings are an object, and so is each section of them. -/
def Context.IsSectioned (x : Context) : Prop :=
  ∃ sections, x.settings = .object sections ∧ ∀ s ∈ sections, ∃ fields, s.2 = .object fields

/-- A log directory that is refused is refused by the operating system, and the file of every channel
is open or can be opened. -/
structure World.KeepsLogs (w : World) : Prop where
  directory : ∀ f, w.logDirectory.refusal = some f → f.isOs = true
  files : ∀ h ∈ w.handlers, w.opening? h = none

theorem World.KeepsLogs.not_hinders {w : World} (h : w.KeepsLogs) (f : Fault) : ¬w.Hinders f := by
  rintro (⟨hos, hrefused⟩ | ⟨r, hrefusal⟩)
  · rw [h.directory f hrefused] at hos
    cases hos
  · have hnone : w.refusal? r = none :=
      refusal?_eq_none_iff.mpr fun _ x hx => h.files x (List.mem_filter.mp hx).1
    rw [hnone] at hrefusal
    cases hrefusal

/-- A server is to be spawned, by an interpreter that is set to something other than a text. -/
structure Context.Misnames (x : Context) (debugClient : Bool) (v : Value) : Prop where
  path : ∃ p, x.path.toPath = .ok p
  mode : x.mode.IsProductive debugClient
  setting : x.interpreter = .ok v
  isSet : v.isSet = true
  notText : ∀ t, v ≠ .text t

theorem Context.isSectioned_of_python {x : Context} {fields : List (String × Value)}
    (h : x.settings = .object [("python", .object fields)]) : x.IsSectioned := by
  refine ⟨_, h, fun entry hmem => ?_⟩
  rw [List.mem_singleton.mp hmem]
  exact ⟨fields, rfl⟩

theorem Value.mem_of_field? {name : String} {fields : List (String × Value)} {v : Value}
    (h : field? name fields = some v) : (name, v) ∈ fields := by
  induction fields with
  | nil => cases h
  | cons field rest ih =>
    obtain ⟨n, u⟩ := field
    rw [field?] at h
    split at h
    · rename_i hn
      rw [hn, Option.some.inj h]
      exact List.mem_cons_self
    · exact List.mem_cons_of_mem _ (ih h)

theorem Context.IsSectioned.exists_interpreter {x : Context} (h : x.IsSectioned) :
    ∃ v, x.interpreter = .ok v := by
  obtain ⟨sections, hsettings, hobjects⟩ := h
  have hsection : ∃ fields, x.configuration "python" = .ok (.object fields) := by
    rw [configuration, hsettings]
    dsimp only
    cases hfield : Value.field? "python" sections with
    | none => exact ⟨[], rfl⟩
    | some v =>
      obtain ⟨fields, hfields⟩ := hobjects _ (Value.mem_of_field? hfield)
      exact ⟨fields, congrArg Except.ok hfields⟩
  obtain ⟨fields, hfields⟩ := hsection
  exact ⟨_, by rw [interpreter, hfields]; rfl⟩

variable {respond : Call → Setting → Except Fault Reply × Setting} {i k j : Nat}

/-- An activation writes to its log that it ends with this fault. -/
abbrev Fault.IsReported (f : Fault) : Prop := Bootstrap.isReported f = true

namespace Bootstrap

theorem leads_resolveMode_errs {a : Account} (h : a.world.Stocked i k j) (mode : HostMode)
    (debugClient : Bool) :
    (resolveMode mode debugClient).Leads (.ofAccounts respond) a fun r a' =>
      (a'.world.Stocked i k j ∧ ∀ f, r = .error f → a'.Owes Fault.IsReported f) ∧
        (r = .ok .production → mode.IsProductive debugClient) := by
  cases hm : mode.mode? with
  | none =>
    cases mode with
    | mode m => cases hm
    | value v =>
      rw [resolveMode, hm]
      exact ⟨⟨h, fun f => Account.owes_self rfl⟩, fun hr => by cases hr⟩
  | some m =>
    rw [resolveMode_of_mode? hm, underDebugging]
    split
    · rename_i hdebug
      have hremarked : (do
          Procedure.remark .debuggingClient
          pure .production : Procedure Mode).Errs respond Fault.IsReported i k j :=
        (errs_compositional ..).bind (errs_remark _) fun _ => traces_pure _
      exact (hremarked a h).mono fun r a' hr => ⟨hr, fun _ => .inr ⟨hdebug.1 ▸ hm, hdebug.2⟩⟩
    · exact ⟨⟨h, by simp⟩, fun hr => .inl (by rw [hm, Except.ok.inj hr])⟩

/-- A fault that is reported is owed all the same. -/
theorem errs_reporting {p : Procedure Transport} (hp : p.Errs respond Fault.IsReported i k j) :
    (reporting p).Errs respond Fault.IsReported i k j := by
  intro a h
  rw [reporting, leads_recover]
  refine (hp a h).mono fun r a' hr => ?_
  cases r with
  | ok t => exact hr
  | error f =>
    dsimp only [onError]
    split
    · rename_i hreported
      exact ⟨hr.1.happen _, fun g => Account.owes_self hreported⟩
    · exact hr

section Preparation

variable (hstock : ∀ {i k j : Nat} {s : Setting}, s.world.Stocked i k j →
  ∀ c, (respond c s).2.world.Stocked i k j) {config : Config} {x : Context} {path : Path}
include hstock

/-- An interpreter that is not set is reported before anything is run. -/
theorem errs_prepareSpawn {v : Value} (hsetting : x.interpreter = .ok v)
    (htext : v.isSet = true → ∃ t, v = .text t) (hn : x.notifier ≠ .absent) :
    (prepareSpawn config x path).Errs respond Fault.IsReported i k j := by
  have hgood := errs_compositional respond Fault.IsReported i k j
  intro a h
  have hremarked : (a.update (·.remark (.interpreterSetting v))).world.Stocked i k j := h.happen _
  rw [prepareSpawn, hsetting, leads_bind, leads_ofExcept, onOk, leads_bind, leads_remark, onOk,
    selectTransport]
  dsimp only
  split
  · rename_i hset
    obtain ⟨program, rfl⟩ := htext hset
    exact hgood.bind (hgood.bind (errs_remark _) fun _ => hgood.bind (errs_remark _) fun _ =>
      traces_pure _) (fun t => hgood.bind (traces_pure program) fun _ =>
        hgood.bind (errs_ensureDependency hstock hn (fun _ => rfl) _ _) fun _ =>
          hgood.bind (errs_remark _) fun _ => traces_pure t) _ hremarked
  · exact ⟨hremarked, fun f => Account.owes_self rfl⟩

theorem errs_prepare (hsectioned : x.IsSectioned) (hn : x.notifier ≠ .absent)
    (hpath : x.path.toPath = .ok path) (hnamed : ¬∃ v, x.Misnames config.debugClient v) :
    (prepare config x path).Errs respond Fault.IsReported i k j := by
  obtain ⟨v, hsetting⟩ := hsectioned.exists_interpreter
  intro a h
  rw [prepare, leads_bind]
  refine (leads_resolveMode_errs h x.mode config.debugClient).mono fun r a₁ hr => ?_
  obtain ⟨⟨h₁, hfault⟩, hmode⟩ := hr
  cases r with
  | error f => exact ⟨h₁, fun g hg => hfault g (congrArg _ (Except.error.inj hg))⟩
  | ok mode =>
    have hgood := errs_compositional respond Fault.IsReported i k j
    refine hgood.bind (errs_remark _) (fun _ => ?_) a₁ h₁
    cases mode with
    | development => exact hgood.bind (errs_remark _) fun _ => traces_pure _
    | production =>
      refine errs_prepareSpawn hstock hsetting (fun hset => ?_) hn
      by_contra hno
      exact hnamed ⟨v, ⟨path, hpath⟩, hmode rfl, hsetting, hset, fun t ht => hno ⟨t, ht⟩⟩

theorem leads_preparation_errs {s : Setting} (h : s.world.Stocked i k j) {m n : Nat} {b : Bootstrap}
    (hb : s.world.bootstraps[m]? = some b) (hx : s.world.contexts[n]? = some x)
    (hsectioned : x.IsSectioned) (hn : x.notifier ≠ .absent)
    (hnamed : ¬∃ v, x.Misnames b.config.debugClient v) :
    (preparation m n).Leads (.ofAccounts respond) ⟨s, []⟩ fun r a =>
      a.world.Stocked i k j ∧ ∀ f, r = .error f → a.Owes Fault.IsReported f := by
  have hgood := errs_compositional respond Fault.IsReported i k j
  rw [preparation, find, leads_find_bind hb, Context.find, leads_find_bind hx]
  split
  · exact ⟨h, fun f => Account.owes_self rfl⟩
  · rename_i path hpath
    exact hgood.bind (errs_remark _) (fun _ => hgood.bind
      (errs_reporting (errs_prepare hstock hsectioned hn hpath hnamed)) fun _ => traces_pure _) _ h

/-- Once the transport is ready, what goes wrong is none of the client's doing. -/
theorem leads_succession_errs {a : Account} {m : Nat} (hm : m < i) (h : a.world.Stocked i k j) (n : Nat)
    {prepared : Config × Context × Transport} (ht : ∀ v, prepared.2.2 ≠ .foreign v) :
    (succession m n prepared).Leads (.ofAccounts respond) a fun r a' =>
      ∀ f, r = .error f → a'.Owes Fault.IsReported f := by
  have hreplace : (replacePrevious m).Errs respond Fault.IsReported i k j :=
    errs_replacePrevious hstock hm
  rw [succession, leads_bind]
  refine (hreplace a h).mono fun r a₁ hr => ?_
  obtain ⟨h₁, hfault⟩ := hr
  cases r with
  | error f => exact fun g hg => hfault g (congrArg _ (Except.error.inj hg))
  | ok u =>
    rw [onOk, leads_bind]
    refine (leads_buildSession_errs hstock Fault.IsReported h₁ ht prepared.1.options).mono fun r a₂ hr => ?_
    cases r with
    | error f => exact hr
    | ok l =>
      obtain ⟨h₂, hl⟩ := hr
      let c : Controller := ⟨prepared.2.1.notifier, none, .unstarted⟩
      let made := addController c a₂.world
      have hmade : made.controllers[a₂.world.controllers.length]? = some c :=
        List.getElem?_concat_length
      have hk : a₂.world.controllers.length < made.controllers.length :=
        (List.getElem?_eq_some_iff.mp hmade).1
      have hlinked : made.Linked := h₂.toLinked.addController _
      have hheld : (made.hold m (some a₂.world.controllers.length)).Stocked _ _ _ :=
        (World.Stocked.all hlinked).hold fun l hl => Option.some.inj hl ▸ hk
      change (hold m (some a₂.world.controllers.length) >>= fun _ =>
        Controller.start a₂.world.controllers.length l n >>= fun _ =>
          pure a₂.world.controllers.length).Leads _ (a₂.update (addController c)) _
      rw [leads_bind, hold, leads_change, onOk, leads_bind]
      refine (Controller.leads_start_errs hstock Fault.IsReported hheld hmade rfl hk hl n).mono
        fun r a₃ hr => ?_
      cases r with
      | error f => exact fun g hg => hr.2 g (congrArg _ (Except.error.inj hg))
      | ok started =>
        intro g hg
        cases hg

end Preparation

section Activation

variable {s : Setting} {m n : Nat} {b : Bootstrap} {x : Context}

/-- Where the settings name the interpreter by a text if at all, an activation ends with a fault that is
reported, with the fault of a call, or with one of the logs. -/
theorem owes_of_activate (hstock : ∀ {i k j : Nat} {s : Setting}, s.world.Stocked i k j →
      ∀ c, (respond c s).2.world.Stocked i k j) (hlinked : s.world.Linked)
    (hb : s.world.bootstraps[m]? = some b) (hx : s.world.contexts[n]? = some x)
    (hsectioned : x.IsSectioned) (hn : x.notifier ≠ .absent)
    (hnamed : ¬∃ v, x.Misnames b.config.debugClient v) {f : Fault}
    (hf : ((activate m n).run respond s).1 = .error f) :
    f.IsReported ∨ (∃ y ∈ (activate m n).exchanges respond s, y.result = .error f) ∨
      ((activate m n).run respond s).2.world.Hinders f := by
  have hlt : m < s.world.bootstraps.length := (List.getElem?_eq_some_iff.mp hb).1
  have hactivate : (activate m n).Leads (.ofAccounts respond) ⟨s, []⟩ fun r a =>
      ∀ f, r = .error f → a.Owes Fault.IsReported f := by
    have hprepared := (leads_runs _ _ _).mp
      (leads_preparation_errs hstock (.all hlinked) hb hx hsectioned hn hnamed)
    have hchecked : (preparation m n).Yields (.ofAccounts respond) ⟨s, []⟩ fun prepared a =>
        prepared.2.2.IsChecked b.config.dependency a.commands := yields_preparation hb n
    rw [activate_eq, leads_bind, leads_runs]
    cases hrun : ((preparation m n).run respond s).1 with
    | error g =>
      rw [hrun] at hprepared
      exact fun f hf => hprepared.2 f (congrArg _ (Except.error.inj hf))
    | ok prepared =>
      refine leads_succession_errs hstock hlt hprepared.1 n fun v hforeign => ?_
      have hmodule := (leads_runs _ _ _).mp hchecked prepared hrun
      dsimp only at hmodule
      rw [hforeign] at hmodule
      exact hmodule
  rw [leads_runs] at hactivate
  rcases hactivate f hf with (hreported | hlogs) | hcall
  · exact .inl hreported
  · exact .inr (.inr hlogs)
  · rw [exchanges_deeds] at hcall
    exact .inr (.inl hcall)

/-- An interpreter that is no text is taken for one before anything has been asked of anyone. -/
theorem run_of_misnames (hb : s.world.bootstraps[m]? = some b) (hx : s.world.contexts[n]? = some x)
    {v : Value} (h : x.Misnames b.config.debugClient v) :
    ((activate m n).run respond s).1 = .error (.notText 0 v.kindName) ∧
      (activate m n).exchanges respond s = [] := by
  obtain ⟨path, hpath⟩ := h.path
  have hword : commandWord 0 v = .error (.notText 0 v.kindName) := by
    cases v with
    | text t => exact absurd rfl (h.notText t)
    | _ => rfl
  have hspawn : ∀ a : Account, a.exchanges = [] →
      (arrangeSpawn b.config x path).Leads (.ofAccounts respond) a fun r a' =>
        r = .error (.notText 0 v.kindName) ∧ a'.exchanges = [] := by
    intro a ha
    refine leads_reporting ?_ fun f a' hr => ⟨hr.1, (a'.exchanges_update _).trans hr.2⟩
    simp only [prepareSpawn, h.setting, selectTransport, h.isSet, if_true, hword, leads_bind,
      leads_remark, leads_ofExcept, leads_pure, onOk]
    simpa using ha
  have hfails : ∀ a : Account, a.exchanges = [] →
      (arrangeSpawn b.config x path >>= fun t => succession m n (b.config, x, t)).Leads
        (.ofAccounts respond) a fun r a' => r = .error (.notText 0 v.kindName) ∧ a'.exchanges = [] := by
    intro a ha
    rw [leads_bind]
    refine (hspawn a ha).mono fun r a' hr => ?_
    obtain ⟨rfl, ha'⟩ := hr
    exact ⟨rfl, ha'⟩
  have hactivate : (activate m n).Leads (.ofAccounts respond) ⟨s, []⟩ fun r a =>
      r = .error (.notText 0 v.kindName) ∧ a.exchanges = [] := by
    rw [activate_eq_arrange, find, leads_find_bind hb, Context.find, leads_find_bind hx,
      arrange_of_isProductive hpath h.mode, LawfulMonad.bind_assoc, leads_bind, leads_remark, onOk,
      LawfulMonad.bind_assoc]
    rcases h.mode with hmode | ⟨hmode, _⟩
    · rw [HostMode.announce, hmode]
      exact hfails _ rfl
    · rw [HostMode.announce, hmode, leads_bind, leads_remark, onOk]
      exact hfails _ rfl
  rw [leads_runs, exchanges_deeds] at hactivate
  exact hactivate

end Activation

/-- If no collaborator raises anything, an activation gives a controller or ends with a fault of the
configuration or of the installation, unless a server is to be spawned by an interpreter that is set to
something other than a text. The bootstrap may be one that any run leads to, and other steps may be taken
during the calls. -/
theorem activate_reports_iff (limit depth : Nat) {directory : String} {log : LogDirectory}
    {script : Script} {steps : List Step} {moment : Moment}
    (hmoment : moment ∈ Step.runMoments limit depth steps (.start directory log script)) {s : Setting}
    (hs : s.world = moment.world) {m n : Nat} {b : Bootstrap} (hb : s.world.bootstraps[m]? = some b)
    {x : Context} (hx : s.world.contexts[n]? = some x) (hsectioned : x.IsSectioned)
    (hn : x.notifier ≠ .absent)
    (hcalls : ∀ y ∈ (activate m n).exchanges (Call.respond (Step.leave limit depth)) s,
      ∃ reply, y.result = .ok reply)
    (hlogs : ((activate m n).run (Call.respond (Step.leave limit depth)) s).2.world.KeepsLogs) :
    ((∃ k, ((activate m n).run (Call.respond (Step.leave limit depth)) s).1 = .ok k) ∨
      ∃ f, ((activate m n).run (Call.respond (Step.leave limit depth)) s).1 = .error f ∧
        (f.kind.isA .configuration = true ∨ f.kind.isA .installation = true)) ↔
      ¬∃ v, x.Misnames b.config.debugClient v := by
  have hlinked : s.world.Linked := hs ▸ Step.linked_moments limit depth hmoment
  constructor
  · rintro hends ⟨v, hv⟩
    have hrun : ((activate m n).run (Call.respond (Step.leave limit depth)) s).1 =
        .error (.notText 0 v.kindName) := (run_of_misnames hb hx hv).1
    rw [hrun] at hends
    rcases hends with ⟨k, hk⟩ | ⟨f, hf, hkind⟩
    · cases hk
    · rw [← Except.error.inj hf] at hkind
      simp [Fault.kind, FaultKind.isA, FaultKind.wider] at hkind
  · intro hnamed
    cases hrun : ((activate m n).run (Call.respond (Step.leave limit depth)) s).1 with
    | ok k => exact .inl ⟨k, rfl⟩
    | error f =>
      refine .inr ⟨f, rfl, ?_⟩
      rcases owes_of_activate (fun h c => Step.stocked_respond limit depth h c) hlinked hb hx hsectioned
        hn hnamed hrun with hreported | ⟨y, hy, hf⟩ | hhinders
      · exact (Bool.or_eq_true _ _).mp hreported
      · obtain ⟨reply, hreply⟩ := hcalls y hy
        rw [hf] at hreply
        cases hreply
      · exact absurd hhinders (hlogs.not_hinders f)

/-- A host in production makes a context, with this for the interpreter, and a bootstrap. -/
def interpretingSteps (interpreter : Value) : List Step :=
  [.newContext (.path ⟨.none, []⟩) (.member (.text "production"))
    (.object [("python", .object [("pythonPath", interpreter)])]) .host, .newBootstrap none]

def interpretedSetting (interpreter : Value) : Setting :=
  Step.leaveAll 9 9 (interpretingSteps interpreter) (.unlogged .empty)

/-- The interpreter is a text, and the dependency is there. -/
theorem activate_reports_of_text :
    let r := (activate 0 0).run (Call.respond (Step.leave 9 9)) (interpretedSetting (.text "py"))
    (∃ k, r.1 = .ok k) ∨ ∃ f, r.1 = .error f ∧
      (f.kind.isA .configuration = true ∨ f.kind.isA .installation = true) := by
  intro r
  obtain ⟨moment, hmoment, hs⟩ := Step.exists_moment_leaveAll 9 (show 9 ≠ 0 by decide)
    (interpretingSteps (.text "py")) (by simp [interpretingSteps]) (.unlogged .empty)
  have hreturned : ((activate 0 0).exchanges (Call.respond (Step.leave 9 9))
      (interpretedSetting (.text "py"))).all (fun y => y.result.isOk) = true := by decide +kernel
  have hlogs : r.2.world.KeepsLogs := by
    have hnone : r.2.world.handlers = [] := by decide +kernel
    refine ⟨fun f hrefused => ?_, fun h hmem => ?_⟩
    · cases hrefused
      rfl
    · rw [hnone] at hmem
      cases hmem
  refine (activate_reports_iff 9 9 hmoment (s := interpretedSetting (.text "py")) hs.symm (m := 0)
    (n := 0) rfl rfl (Context.isSectioned_of_python rfl) nofun (fun y hy => ?_) hlogs).mpr ?_
  · have hok := List.all_eq_true.mp hreturned y hy
    cases hresult : y.result with
    | ok reply => exact ⟨reply, rfl⟩
    | error f =>
      rw [hresult] at hok
      cases hok
  · rintro ⟨v, hv⟩
    have hsetting := hv.setting
    cases hsetting
    exact hv.notText "py" rfl

/-- The interpreter is a number. No collaborator is even called, and yet the activation ends with a
fault that is neither of the configuration nor of the installation. -/
theorem exists_unreported_setting :
    let s := interpretedSetting (.int 5)
    let r := (activate 0 0).run (Call.respond (Step.leave 9 9)) s
    (∃ b x, s.world.bootstraps[0]? = some b ∧ s.world.contexts[0]? = some x ∧ x.IsSectioned ∧
      x.notifier ≠ .absent) ∧
      (activate 0 0).exchanges (Call.respond (Step.leave 9 9)) s = [] ∧ r.2.world.KeepsLogs ∧
      ∃ f, r.1 = .error f ∧ f.kind.isA .configuration = false ∧ f.kind.isA .installation = false := by
  intro s r
  refine ⟨⟨_, _, rfl, rfl, Context.isSectioned_of_python rfl, nofun⟩, rfl,
    ⟨fun f hrefused => ?_, nofun⟩, .notText 0 "int", rfl, rfl, rfl⟩
  cases hrefused
  rfl

end Bootstrap

end EditorClient
