import EditorClient.Proofs.Account

/-! Before it spawns a server, an activation has its interpreter import the server's dependency, and
install it first if need be. That is over before anything that there was is replaced. -/

namespace EditorClient

open Procedure

def Call.isCommand : Call → Bool
  | process _ => true
  | _ => false

/-- What a session's client is to spawn. -/
def Call.spawned : Call → Option Value
  | client _ (.startServer command _ _) => some command
  | _ => none

/-- A command or a notice. -/
def Call.isPreparatory : Call → Bool
  | process _ | notify _ => true
  | _ => false

theorem Call.spawned_of_isPreparatory {c : Call} (h : c.isPreparatory = true) :
    c.spawned = none := by
  cases c with
  | client j r => cases h
  | _ => rfl

/-- An update that changes no object, or a call of an allowed sort. -/
def Deed.IsConfined (allowed : Call → Bool) : Deed → Prop
  | update w w' => w.Alike w'
  | exchange x => allowed x.call = true

theorem Procedure.Confined.deeds {α : Type} {allowed : Call → Bool} {p : Procedure α}
    (hp : p.Confined allowed) (respond : Call → Setting → Except Fault Reply × Setting)
    (s : Setting) : ∀ d ∈ p.deeds respond s, d.IsConfined allowed := by
  induction p generalizing s with
  | done a => exact List.forall_mem_nil _
  | fail f => exact List.forall_mem_nil _
  | read next ih => exact ih s.world (hp s.world) s
  | update f next ih => exact List.forall_mem_cons.mpr ⟨hp.1 s.world, ih hp.2 _⟩
  | call c next ih => exact List.forall_mem_cons.mpr ⟨hp.1, ih _ (hp.2 _) _⟩

namespace Exchange

/-- The command has exited with zero. -/
def Succeeds (x : Exchange) (command : List String) : Prop :=
  x.call = .process command ∧ ∃ reply, x.result = .ok reply ∧ reply.exitCode = 0

/-- The command has exited with another code, or it could not be launched. -/
def Fails (x : Exchange) (command : List String) : Prop :=
  x.call = .process command ∧ ((∃ reply, x.result = .ok reply ∧ reply.exitCode ≠ 0) ∨
    ∃ f, x.result = .error f ∧ f.isOs = true)

def Breaks (x : Exchange) (c : Call) (f : Fault) : Prop := x.call = c ∧ x.result = .error f

/-- What is found out about a command is due to what came of it. -/
def Judged (x : Exchange) (command : List String) : Except Fault Bool → Prop
  | .ok true => x.Succeeds command
  | .ok false => x.Fails command
  | .error f => x.Breaks (.process command) f ∧ f.isOs = false

end Exchange

/-- The commands after which an interpreter is known to have a module. -/
inductive Checked (interpreter module : String) : List Exchange → Prop
  | present {x : Exchange} (h : x.Succeeds [interpreter, "-c", "import " ++ module]) :
    Checked interpreter module [x]
  | installed {x y : Exchange} (hx : x.Fails [interpreter, "-c", "import " ++ module])
    (hy : y.Succeeds [interpreter, "-m", "pip", "install", module]) :
    Checked interpreter module [x, y]

/-- The commands among what was done. -/
def Account.commands (a : Account) : List Exchange := a.exchanges.filter (·.call.isCommand)

/-- The dependency of a server that is to be spawned has been checked; else nothing was. -/
def Transport.IsChecked (module : String) (commands : List Exchange) : Transport → Prop
  | socket .. => commands = []
  | spawn (.text interpreter) _ _ => Checked interpreter module commands
  | _ => False

variable {respond : Call → Setting → Except Fault Reply × Setting} {cs : List Exchange}

section Commands

theorem commands_change (f : World → World) :
    (change f).Maintains (.ofAccounts respond) fun a => a.commands = cs := by
  intro a h
  rw [leads_change]
  simpa [Account.commands] using h

theorem commands_request {c : Call} (hc : c.isCommand = false) :
    (request c).Maintains (.ofAccounts respond) fun a => a.commands = cs := by
  intro a h
  rw [leads_exchange]
  simpa [Account.commands, Account.made, hc] using h

theorem remarking_commands (respond : Call → Setting → Except Fault Reply × Setting)
    (cs : List Exchange) :
    Remarking fun p => p.Maintains (.ofAccounts respond) fun a => a.commands = cs where
  bind := (maintains_compositional _ _).bind
  pure := fun _ _ h => h
  throw := fun _ _ h => h
  remark := fun _ => commands_change _

theorem commands_notify (n : Notifier) (notice : Notice) :
    (n.notify notice).Maintains (.ofAccounts respond) fun a => a.commands = cs := by
  have hremarking := remarking_commands respond cs
  cases n with
  | host => exact hremarking.bind (commands_request rfl) fun _ => hremarking.pure ()
  | log logger =>
    exact fun a h => (leads_post _ _).mpr
      ⟨fun _ _ => commands_change _ a h, fun _ => commands_change _ a h⟩
  | absent => exact hremarking.throw _

/-- A program runs once, and its exit code is passed on. -/
theorem leads_runCommand (program : String) (args : List String) (a : Account) :
    (runCommand (program :: args)).Leads (.ofAccounts respond) a fun r a' =>
      ∃ x, a'.exchanges = a.exchanges ++ [x] ∧ x.call = .process (program :: args) ∧
        r = x.result.map Reply.exitCode := by
  have hstarted : ∀ b : Account, (do
      let reply ← request (.process (program :: args))
      if !reply.output.isEmpty then
        Procedure.remark (.commandOutput (String.ofList (trimEnd isBlank (readUtf8 reply.output))))
      Procedure.remark (.commandExited program reply.exitCode)
      pure reply.exitCode : Procedure Int).Leads (.ofAccounts respond) b fun r a' =>
        ∃ x, a'.exchanges = b.exchanges ++ [x] ∧ x.call = .process (program :: args) ∧
          r = x.result.map Reply.exitCode := by
    intro b
    rw [leads_bind, leads_exchange]
    cases hr : (b.made respond (.process (program :: args))).result with
    | error f => exact ⟨_, Account.exchanges_exchange .., rfl, by rw [hr]; rfl⟩
    | ok reply =>
      dsimp only [onOk]
      split
      · exact ⟨b.made respond (.process (program :: args)), by simp, rfl, by rw [hr]; rfl⟩
      · exact ⟨b.made respond (.process (program :: args)), by simp, rfl, by rw [hr]; rfl⟩
  have hh := hstarted (a.update (·.remark (.commandStarted (program :: args))))
  rw [Account.exchanges_update] at hh
  exact hh

/-- A program runs once, and its command is judged by what came of it. -/
theorem leads_succeeds (program : String) (args : List String) (a : Account) :
    (succeeds program args).Leads (.ofAccounts respond) a fun r a' =>
      ∃ x, a'.exchanges = a.exchanges ++ [x] ∧ x.Judged (program :: args) r := by
  rw [succeeds, leads_recoverOs, leads_bind]
  refine (leads_runCommand program args a).mono fun r a' hr => ?_
  obtain ⟨x, ha', hcall, hr⟩ := hr
  cases hx : x.result with
  | ok reply =>
    rw [hx] at hr
    subst hr
    refine ⟨x, ha', ?_⟩
    by_cases hcode : reply.exitCode = 0
    · have hzero : (reply.exitCode == 0) = true := by simpa using hcode
      rw [hzero]
      exact ⟨hcall, reply, hx, hcode⟩
    · have hzero : (reply.exitCode == 0) = false := by simpa using hcode
      rw [hzero]
      exact ⟨hcall, .inl ⟨reply, hx, hcode⟩⟩
  | error f =>
    rw [hx] at hr
    subst hr
    exact ⟨fun hos => ⟨x, by simpa using ha', hcall, .inr ⟨f, hx, hos⟩⟩,
      fun hos => ⟨x, ha', ⟨hcall, hx⟩, hos⟩⟩

theorem yields_succeeds (program : String) (args : List String) {a : Account} (h : a.commands = cs) :
    (succeeds program args).Yields (.ofAccounts respond) a fun b a' =>
      ∃ x, a'.commands = cs ++ [x] ∧
        if b then x.Succeeds (program :: args) else x.Fails (program :: args) := by
  refine (leads_succeeds program args a).mono fun r a' hr b hb => ?_
  obtain ⟨x, ha', hx⟩ := hr
  have hcommands : x.call.isCommand = true → a'.commands = cs ++ [x] := fun hcommand => by
    simp [Account.commands, ha', hcommand, ← h]
  subst hb
  cases b with
  | true => exact ⟨x, hcommands (by rw [hx.1]; rfl), hx⟩
  | false => exact ⟨x, hcommands (by rw [hx.1]; rfl), hx⟩

theorem yields_ensureDependency (interpreter module : String) (n : Notifier) {a : Account}
    (h : a.commands = []) :
    (ensureDependency interpreter module n).Yields (.ofAccounts respond) a fun _ a' =>
      Checked interpreter module a'.commands := by
  refine (yields_succeeds _ _ h).bind fun present a₁ h₁ => ?_
  obtain ⟨x, h₁, hx⟩ := h₁
  have hremarking := remarking_commands respond [x]
  cases present with
  | true =>
    refine (Maintains.yields (hremarking.bind (hremarking.remark _) fun _ => hremarking.pure _)
      h₁).mono fun _ a₂ h₂ => ?_
    rw [h₂]
    exact .present hx
  | false =>
    refine Yields.bind (Maintains.yields (hremarking.remark _) h₁) fun _ a₂ h₂ =>
      Yields.bind ((commands_notify _ _).yields h₂) fun _ a₃ h₃ =>
        (yields_succeeds _ _ h₃).bind fun installed a₄ h₄ => ?_
    obtain ⟨y, h₄, hy⟩ := h₄
    have hremarking := remarking_commands respond [x, y]
    cases installed with
    | true =>
      refine (Maintains.yields (hremarking.bind (hremarking.remark _) fun _ =>
        hremarking.bind (commands_notify _ _) fun _ => hremarking.pure _) h₄).mono fun _ a₅ h₅ => ?_
      rw [h₅]
      exact .installed hx hy
    | false =>
      exact Yields.bind (Maintains.yields (hremarking.remark _) h₄) fun _ a₅ h₅ =>
        Yields.bind ((commands_notify _ _).yields h₅) fun _ _ _ => yields_throw _

end Commands

namespace Bootstrap

section Preparation

variable {a : Account}

theorem yields_selectTransport (port : Int) (path : Path) (interpreter : Value) (server : String)
    (h : a.commands = cs) :
    (selectTransport .production port (some path) interpreter server).Yields (.ofAccounts respond) a
      fun t a' => t = spawnServer interpreter server path ∧ a'.commands = cs := by
  unfold selectTransport
  dsimp only
  split
  · exact Yields.bind ((commands_change _).yields h) fun _ _ h₁ =>
      Yields.bind ((commands_change _).yields h₁) fun _ _ h₂ => yields_pure ⟨rfl, h₂⟩
  · exact yields_throw _

theorem yields_prepareSpawn (config : Config) (context : Context) (path : Path)
    (h : a.commands = []) :
    (prepareSpawn config context path).Yields (.ofAccounts respond) a fun t a' =>
      t.IsChecked config.dependency a'.commands := by
  have hremarking := remarking_commands respond []
  refine Yields.bind (Maintains.yields (hremarking.ofExcept _) h) fun interpreter a₁ h₁ =>
    Yields.bind (Maintains.yields (hremarking.remark _) h₁) fun _ a₂ h₂ =>
      (yields_selectTransport _ _ _ _ h₂).bind fun t a₃ h₃ => ?_
  obtain ⟨rfl, h₃⟩ := h₃
  -- a setting that is no text cannot be run as a command, so that nothing is checked with it
  cases interpreter with
  | text program =>
    change (ensureDependency program config.dependency _ >>= _).Yields _ _ _
    refine (yields_ensureDependency _ _ _ h₃).bind fun _ a₄ h₄ => ?_
    exact Yields.bind ((commands_change _).yields rfl) fun _ a₅ h₅ => yields_pure (h₅ ▸ h₄)
  | _ => exact yields_throw _

theorem yields_prepare (config : Config) (context : Context) (path : Path) (h : a.commands = []) :
    (prepare config context path).Yields (.ofAccounts respond) a fun t a' =>
      t.IsChecked config.dependency a'.commands := by
  have hremarking := remarking_commands respond []
  refine Yields.bind (Maintains.yields (hremarking.resolveMode _ _) h) fun mode a₁ h₁ =>
    Yields.bind (Maintains.yields (hremarking.remark _) h₁) fun _ a₂ h₂ => ?_
  cases mode with
  | development =>
    exact Yields.bind ((commands_change _).yields h₂) fun _ _ h₃ => yields_pure h₃
  | production => exact yields_prepareSpawn config context path h₂

/-- What the run mode comes to does not depend on anything else. -/
theorem leads_resolveMode (mode : HostMode) (debugClient : Bool) (s : Setting) (h : a.commands = cs) :
    (resolveMode mode debugClient).Leads (.ofAccounts respond) a fun r a' =>
      r = ((resolveMode mode debugClient).run respond s).1 ∧ a'.commands = cs := by
  have hsame : ∀ t : Setting, ((resolveMode mode debugClient).run respond t).1 =
      ((resolveMode mode debugClient).run respond s).1 := by
    intro t
    cases mode with
    | mode m =>
      simp only [resolveMode, underDebugging]
      split <;> rfl
    | value v =>
      simp only [resolveMode, underDebugging]
      split
      · split <;> rfl
      · rfl
  have hkept := (leads_accounts _ _ _).mp
    ((remarking_commands respond cs).resolveMode mode debugClient a h)
  exact (leads_accounts _ _ _).mpr ⟨hsame a.setting, hkept⟩

/-- In development there is nothing to check, and no server to spawn. -/
theorem leads_prepare_development {config : Config} {context : Context} {s : Setting}
    (hmode : ((resolveMode context.mode config.debugClient).run respond s).1 = .ok .development)
    (path : Path) (h : a.commands = []) :
    (prepare config context path).Leads (.ofAccounts respond) a fun r a' =>
      r = .ok (.socket loopbackHost config.port) ∧ a'.commands = [] := by
  rw [prepare, leads_bind]
  refine (leads_resolveMode _ _ s h).mono fun r a₁ hr => ?_
  obtain ⟨hr, h₁⟩ := hr
  rw [hmode] at hr
  subst hr
  exact ⟨rfl, commands_change _ _ (commands_change _ _ h₁)⟩

variable {s : Setting} {i : Nat} {b : Bootstrap}

theorem yields_preparation (hb : s.world.bootstraps[i]? = some b) (context : Nat) :
    (preparation i context).Yields (.ofAccounts respond) ⟨s, []⟩ fun prepared a' =>
      prepared.2.2.IsChecked b.config.dependency a'.commands := by
  have hremarking := remarking_commands respond []
  have hfind : (Context.find context).Maintains (.ofAccounts respond)
      fun a => a.commands = [] := maintains_find _ _ _
  rw [Yields, preparation, find, leads_find_bind hb]
  refine Yields.bind (hfind.yields rfl) fun c a₁ h₁ => ?_
  split
  · exact yields_throw _
  · rename_i path _
    refine Yields.bind (Maintains.yields (hremarking.remark _) h₁) fun _ a₂ h₂ => ?_
    refine Yields.bind (leads_reporting (yields_prepare b.config c path h₂) ?_) fun t a₃ h₃ =>
      yields_pure h₃
    intro f a' _ t ht
    cases ht

theorem leads_preparation_development {context : Nat} {c : Context}
    (hb : s.world.bootstraps[i]? = some b) (hc : s.world.contexts[context]? = some c)
    (hmode : ((resolveMode c.mode b.config.debugClient).run respond s).1 = .ok .development) :
    (preparation i context).Leads (.ofAccounts respond) ⟨s, []⟩ fun r a' =>
      a'.commands = [] ∧
        ∀ prepared, r = .ok prepared → prepared.2.2 = .socket loopbackHost b.config.port := by
  have hremarking := remarking_commands respond []
  rw [preparation, find, leads_find_bind hb, Context.find, leads_find_bind hc]
  split
  · exact ⟨rfl, by simp⟩
  · rename_i path _
    refine Maintains.leads_bind (hremarking.remark _) (fun _ _ h => ⟨h, by simp⟩)
      (fun _ a₁ h₁ => ?_) rfl
    rw [leads_bind]
    refine (leads_reporting (leads_prepare_development hmode path h₁) ?_).mono fun r a₂ h₂ => ?_
    · intro f a' h
      cases h.1
    · obtain ⟨rfl, h₂⟩ := h₂
      refine ⟨h₂, fun prepared hp => ?_⟩
      rw [← Except.ok.inj hp]

end Preparation

end Bootstrap

/-- A call that may be made once the transport is ready: only this transport's server is spawned. -/
def Call.Suits (t : Transport) : Call → Prop
  | process _ => False
  | client _ (.startServer command args directory) => t = .spawn command args directory
  | _ => True

theorem Call.Suits.isCommand {t : Transport} {c : Call} (h : c.Suits t) :
    c.isCommand = false := by
  cases c with
  | process words => exact h.elim
  | _ => rfl

theorem Call.Suits.spawned {t : Transport} {c : Call} {command : Value} (h : c.Suits t)
    (hc : c.spawned = some command) : ∃ args directory, t = .spawn command args directory := by
  cases c with
  | client j r =>
    cases r with
    | startServer command' args directory =>
      cases hc
      exact ⟨args, directory, h⟩
    | _ => cases hc
  | _ => cases hc

def Account.Suits (t : Transport) (a : Account) : Prop := ∀ x ∈ a.exchanges, x.call.Suits t

/-- The session is still there with its transport. -/
structure Account.Awaits (t : Transport) (j : Nat) (a : Account) : Prop where
  suits : a.Suits t
  session : ∃ x, a.world.sessions[j]? = some x ∧ x.transport = t

variable {t : Transport} {a : Account}

theorem Account.Suits.update (h : a.Suits t) (f : World → World) : (a.update f).Suits t := by
  simpa [Account.Suits] using h

theorem suits_change (f : World → World) : (change f).Maintains (.ofAccounts respond) (·.Suits t) :=
  fun _ h => h.update f

theorem suits_request {c : Call} (hc : c.Suits t) :
    (request c).Maintains (.ofAccounts respond) (·.Suits t) := by
  intro a h
  refine (leads_exchange c).mpr fun x hx => ?_
  rw [Account.exchanges_exchange, List.mem_append, List.mem_singleton] at hx
  rcases hx with hx | rfl
  · exact h x hx
  · exact hc

theorem Procedure.Confined.suits {α : Type} {allowed : Call → Bool} {p : Procedure α}
    (hp : p.Confined allowed) (hc : ∀ c, allowed c = true → c.Suits t) :
    p.Maintains (.ofAccounts respond) (·.Suits t) :=
  hp.maintains (fun a f _ h => suits_change f a h) fun c h => suits_request (hc c h)

theorem Procedure.Confined.suits_silent {α : Type} {p : Procedure α} (hp : p.Confined Call.isNone) :
    p.Maintains (.ofAccounts respond) (·.Suits t) := hp.suits fun _ h => by cases h

theorem suits_compositional (respond : Call → Setting → Except Fault Reply × Setting)
    (t : Transport) :
    Compositional fun p => p.Maintains (.ofAccounts respond) (·.Suits t) :=
  maintains_compositional _ _

theorem Account.Awaits.update {j : Nat} (h : a.Awaits t j) (f : World → World)
    (hf : (f a.world).sessions = a.world.sessions) : (a.update f).Awaits t j := by
  obtain ⟨x, hx, ht⟩ := h.session
  exact ⟨h.suits.update f, x, (congrArg (·[j]?) hf).trans hx, ht⟩

theorem awaits_change {j : Nat} {f : World → World} (hf : ∀ w, (f w).sessions = w.sessions) :
    (change f).Maintains (.ofAccounts respond) (·.Awaits t j) := fun a h => h.update f (hf a.world)

namespace Session

variable {i j : Nat}

theorem parting_suits : Parting (fun p => p.Maintains (.ofAccounts respond) (·.Suits t)) i where
  toCompositional := suits_compositional respond t
  silent := Confined.suits_silent
  part := fun r hr => suits_request (by cases r <;> trivial)
  closeWriter := compositional_closeWriter (suits_compositional respond t) Confined.suits_silent
    (fun _ => suits_request trivial) (suits_change _)

theorem suits_handshake (name : Value) :
    (handshake i name).Maintains (.ofAccounts respond) (·.Suits t) := by
  have hgood := suits_compositional respond t
  exact hgood.recoverOrdinary (hgood.bind (hgood.bind (suits_request trivial) fun _ _ h => h)
    fun _ => hgood.bind (suits_request trivial) fun _ _ h => h) fun _ _ h => h

theorem suits_openTransport : (openTransport i t).Maintains (.ofAccounts respond) (·.Suits t) := by
  have hgood := suits_compositional respond t
  cases t with
  | socket host port =>
    have hconnect : (connect host port).Confined fun c => c.isPlain && !c.isCommand :=
      confined_connect rfl
    refine hgood.bind (hconnect.suits fun c hc => ?_) fun n => hgood.bind (suits_change _) fun _ =>
      hgood.bind (suits_request trivial) fun _ => hgood.bind (suits_request trivial) fun _ =>
        suits_change _
    cases c <;> trivial
  | spawn command args directory =>
    exact hgood.recoverOs (hgood.bind (suits_request rfl) fun _ _ h => h) fun _ _ h => h
  | foreign v => exact fun _ h => h

/-- Only the transport that the session was made with is opened. -/
theorem leads_start_awaited (h : a.Awaits t j) :
    (start j).Leads (.ofAccounts respond) a fun _ a' => a'.Suits t := by
  have hgood := suits_compositional respond t
  obtain ⟨x, hx, rfl⟩ := h.session
  rw [start, find, Procedure.leads_find_bind hx]
  dsimp only
  split
  · exact h.suits
  · exact hgood.bind (suits_change _) (fun _ => hgood.bind suits_openTransport fun _ =>
      hgood.bind (suits_handshake _) fun _ => hgood.bind (suits_change _) fun _ =>
        Confined.suits_silent (confined_post _)) a h.suits

end Session

theorem handling_suits : Handling fun p => p.Maintains (.ofAccounts respond) (·.Suits t) where
  toCompositional := suits_compositional respond t
  confined := fun hp => hp.suits fun c hc => by cases c <;> trivial
  apart := fun f _ => suits_change f
  hold := fun _ _ => suits_change _
  stop := fun _ => Session.parting_suits.stop (suits_change _)

theorem leads_buildSession (options : SessionOptions) (h : a.Suits t) :
    (buildSession t options).Leads (.ofAccounts respond) a
      (onOk (fun j a' => a'.Awaits t j) fun (_ : Except Fault Nat) a' => a'.Suits t) := by
  have hremark : ∀ r, (remark r).Maintains (.ofAccounts respond) (·.Suits t) :=
    fun r => suits_change _
  refine (Confined.suits_silent (confined_ofExcept _)).leads_bind (fun _ _ h => h)
    (fun names a₁ h₁ => ?_) h
  refine (hremark _).leads_bind (fun _ _ h => h) (fun _ a₂ h₂ => ?_) h₁
  refine (Confined.suits_silent (confined_openChannel _)).leads_bind (fun _ _ h => h)
    (fun slug a₃ h₃ => ?_) h₂
  refine (suits_request (c := .makeClient _) trivial).leads_bind (fun _ _ h => h) (fun _ a₄ h₄ => ?_) h₃
  have hmade : (a₄.update (addSession
      ⟨names.1, t, options, slug, none, false, false, false, 0⟩)).Awaits t
        a₄.world.sessions.length := ⟨h₄.update _, _, List.getElem?_concat_length, rfl⟩
  exact hmade.update (·.happen (.madeClient _)) rfl

namespace Controller

/-- What waits for its start comes to be spawned only in that start. -/
theorem leads_start_awaited {j : Nat} (h : a.Awaits t j) (k context : Nat) :
    (start k j context).Leads (.ofAccounts respond) a fun _ a' => a'.Suits t := by
  have hhandling : Handling fun p => p.Maintains (.ofAccounts respond) (·.Suits t) := handling_suits
  have hmodify : ∀ f, (modify k f).Maintains (.ofAccounts respond) (·.Awaits t j) :=
    fun f => awaits_change fun _ => rfl
  have hremark : ∀ r, (remark r).Maintains (.ofAccounts respond) (·.Awaits t j) :=
    fun r => awaits_change fun _ => rfl
  refine (maintains_find _ _ _).leads_bind (fun _ _ h => h.suits) (fun c a₁ h₁ => ?_) h
  dsimp only
  split
  · exact h₁.suits
  refine (hmodify _).leads_bind (fun _ _ h => h.suits) (fun _ a₂ h₂ => ?_) h₁
  refine (maintains_find _ _ _).leads_bind (fun _ _ h => h.suits) (fun x a₃ h₃ => ?_) h₂
  refine (hremark _).leads_bind (fun _ _ h => h.suits) (fun _ a₄ h₄ => ?_) h₃
  have hstart : (startSession k j).Leads (.ofAccounts respond) a₄ fun _ a' => a'.Suits t :=
    Session.leads_start_awaited (h₄.update (·.callSession k (.start j)) rfl)
  -- from here on it does not matter any more which transport the session has
  refine Leads.bind_maintains (Leads.recoverOrdinary_maintains
    (hstart.bind_maintains fun _ => hhandling.pure _) fun f =>
      hhandling.bind (hhandling.startFailed k j _ f) fun _ => hhandling.pure _) fun started => ?_
  split
  · exact hhandling.bind (suits_change _) fun _ => hhandling.bind (suits_change _) fun _ =>
      hhandling.bind (hhandling.remark _) fun _ => hhandling.pure _
  · exact hhandling.pure _

end Controller

namespace Bootstrap

/-- The end of an activation, once its session is made. -/
theorem leads_startNew_awaited {t : Transport} {a : Account} {j : Nat} (h : a.Awaits t j)
    (i context : Nat) (n : Notifier) :
    (do
      let controller ← newController n
      hold i (some controller)
      let _ ← Controller.start controller j context
      pure controller : Procedure Nat).Leads (.ofAccounts respond) a fun _ a' => a'.Suits t := by
  have hnew : (newController n).Maintains (.ofAccounts respond) (·.Awaits t j) :=
    fun _ h => h.update _ rfl
  refine hnew.leads_bind (fun _ _ h => h.suits) (fun controller a₁ h₁ => ?_) h
  have hhold : (hold i (some controller)).Maintains (.ofAccounts respond) (·.Awaits t j) :=
    awaits_change fun _ => rfl
  refine hhold.leads_bind (fun _ _ h => h.suits) (fun _ a₂ h₂ => ?_) h₁
  exact (Controller.leads_start_awaited h₂ controller context).bind_maintains fun _ _ h => h

theorem suits_succession (respond : Call → Setting → Except Fault Reply × Setting)
    (i context : Nat) (prepared : Config × Context × Transport) :
    (succession i context prepared).Maintains (.ofAccounts respond) (·.Suits prepared.2.2) := by
  refine (suits_compositional respond prepared.2.2).bind (handling_suits.replacePrevious i)
    fun _ a h => ?_
  rw [leads_bind]
  refine (leads_buildSession prepared.1.options h).mono fun r a' hr => ?_
  cases r with
  | ok j => exact leads_startNew_awaited hr i context prepared.2.1.notifier
  | error f => exact hr

variable {s : Setting} {i : Nat} {b : Bootstrap}

theorem exists_deeds_activate (respond : Call → Setting → Except Fault Reply × Setting) (s : Setting)
    (i context : Nat) : ∃ after,
      (activate i context).deeds respond s = (preparation i context).deeds respond s ++ after ∧
        ∀ x, .exchange x ∈ after → ∃ prepared,
          ((preparation i context).run respond s).1 = .ok prepared ∧ x.call.Suits prepared.2.2 := by
  rw [activate_eq]
  cases hrun : (preparation i context).run respond s with
  | mk r u =>
    cases r with
    | error f =>
      exact ⟨[], by rw [deeds_bind_of_error hrun, List.append_nil], fun _ hx => by cases hx⟩
    | ok prepared =>
      refine ⟨_, deeds_bind_of_ok hrun, fun x hx => ⟨prepared, rfl, ?_⟩⟩
      have hsuits := (leads_runs _ _ _).mp
        (suits_succession respond i context prepared ⟨u, []⟩ (List.forall_mem_nil _))
      exact hsuits x (Account.mem_exchanges.mpr hx)

theorem confined_preparation (i context : Nat) :
    (preparation i context).Confined Call.isPreparatory :=
  (confined_preparing (fun _ => rfl) fun _ => rfl).preparation i context

/-- Whatever happens during its calls, what an activation does falls into two parts. In the first it
runs commands and shows notices, and changes nothing else; in the second it runs no command, and what
it spawns then is an interpreter that was found by the commands of the first to have the dependency.
In development it runs and spawns nothing at all. -/
theorem activate_checked (respond : Call → Setting → Except Fault Reply × Setting)
    (hb : s.world.bootstraps[i]? = some b) (context : Nat) :
    (∃ before after, (activate i context).deeds respond s = before ++ after ∧
      (∀ d ∈ before, d.IsConfined Call.isPreparatory) ∧
      ∀ x, .exchange x ∈ after → x.call.isCommand = false ∧
        ∀ command, x.call.spawned = some command → ∃ interpreter, command = .text interpreter ∧
          Checked interpreter b.config.dependency
            ((before.filterMap Deed.exchange?).filter (·.call.isCommand))) ∧
    ∀ c, s.world.contexts[context]? = some c →
      ((resolveMode c.mode b.config.debugClient).run respond s).1 = .ok .development →
        ∀ x ∈ (activate i context).exchanges respond s,
          x.call.isCommand = false ∧ x.call.spawned = none := by
  obtain ⟨after, hdeeds, hafter⟩ := exists_deeds_activate respond s i context
  have hbefore := (confined_preparation i context).deeds respond s
  refine ⟨⟨_, after, hdeeds, hbefore, fun x hx => ?_⟩, fun c hc hmode x hx => ?_⟩
  · obtain ⟨prepared, hrun, hsuits⟩ := hafter x hx
    refine ⟨hsuits.isCommand, fun command hcommand => ?_⟩
    have hchecked := (leads_runs _ _ _).mp (yields_preparation hb context) prepared hrun
    obtain ⟨args, directory, ht⟩ := hsuits.spawned hcommand
    dsimp only at hchecked
    rw [ht] at hchecked
    cases command with
    | text interpreter => exact ⟨interpreter, rfl, hchecked⟩
    | _ => exact hchecked.elim
  · obtain ⟨hnone, hsocket⟩ :=
      (leads_runs _ _ _).mp (leads_preparation_development hb hc hmode)
    rw [← exchanges_deeds _ _ s, Account.mem_exchanges, hdeeds] at hx
    rcases List.mem_append.mp hx with hx | hx
    · -- what is prepared is no call on a session's client
      refine ⟨?_, Call.spawned_of_isPreparatory (hbefore _ hx)⟩
      simpa using List.filter_eq_nil_iff.mp hnone x (Account.mem_exchanges.mpr hx)
    · obtain ⟨prepared, hrun, hsuits⟩ := hafter x hx
      refine ⟨hsuits.isCommand, Option.eq_none_iff_forall_ne_some.mpr fun command hcommand => ?_⟩
      obtain ⟨args, directory, ht⟩ := hsuits.spawned hcommand
      rw [hsocket prepared hrun] at ht
      cases ht

/-- The interpreter lacks the dependency, which can be installed. -/
def lackingSetting : Setting :=
  Step.leaveAll 9 9
    [.newContext (.path ⟨.none, []⟩) (.member (.text "production"))
      (.object [("python", .object [("pythonPath", .text "py")])]) .host, .newBootstrap none]
    (.unlogged (Script.empty.append .process [.mk [] none 1 []]))

theorem activate_checked_installed :
    ∃ x ∈ (activate 0 0).exchanges (Call.respond (Step.leave 9 9)) lackingSetting,
      x.call.spawned = some (.text "py") ∧ ∃ before after,
        (activate 0 0).deeds (Call.respond (Step.leave 9 9)) lackingSetting = before ++ after ∧
        .exchange x ∈ after ∧
        Checked "py" "pygls" ((before.filterMap Deed.exchange?).filter (·.call.isCommand)) := by
  have hb : lackingSetting.world.bootstraps[0]? = some ⟨Config.standard, none⟩ := rfl
  obtain ⟨⟨before, after, hdeeds, hbefore, hafter⟩, _⟩ :=
    activate_checked (Call.respond (Step.leave 9 9)) hb 0
  obtain ⟨x, hx, hspawned⟩ : ∃ x ∈ (activate 0 0).exchanges (Call.respond (Step.leave 9 9))
      lackingSetting, x.call.spawned = some (.text "py") :=
    ⟨_, List.get_mem _ ⟨5, by decide +kernel⟩, rfl⟩
  have hdeed := hx
  rw [← exchanges_deeds _ _ lackingSetting, Account.mem_exchanges, hdeeds] at hdeed
  rcases List.mem_append.mp hdeed with hd | hd
  · rw [Call.spawned_of_isPreparatory (hbefore _ hd)] at hspawned
    cases hspawned
  · obtain ⟨interpreter, htext, hchecked⟩ := (hafter x hd).2 _ hspawned
    cases htext
    exact ⟨x, hx, hspawned, before, after, hdeeds, hd, hchecked⟩

end Bootstrap

end EditorClient
