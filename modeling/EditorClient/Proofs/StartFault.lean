import EditorClient.Proofs.FailedStart

/-! What comes of a fault in a start. A fault of the handshake is reported as a failed start and a fault
of the operating system as a transport that could not be opened; any other fault of a transport ends
the start as it is. -/

namespace EditorClient

open Account Procedure

/-- One fault says that the session could not be started, and names the other as its cause. -/
structure Fault.Reports (g f : Fault) : Prop where
  kind : g.kind = .sessionStart ∨ g.kind = .transportConnect
  cause : g.cause = some f

theorem Fault.cause_ne_self (f : Fault) : f.cause ≠ some f := by
  intro h
  have hsize := congrArg sizeOf h
  cases f with
  | badConfiguration problem => cases problem <;> cases h
  | _ => simp [cause] at hsize h

def Call.isGreeting : Call → Bool
  | client _ .beginHandshake | client _ .finishHandshake => true
  | _ => false

/-- The call by which a transport is opened. -/
def Call.isOpening : Call → Bool
  | connect .. | client _ (.startServer ..) => true
  | _ => false

namespace Exchange

variable {y : Exchange} {f g : Fault}

/-- The fault that the call ended with is reported by the other, or it is the other. -/
structure IsAnswered (y : Exchange) (f g : Fault) : Prop where
  reports : g.Reports f ↔ (f.isOs = true ∧ y.call.isOpening = true) ∨ y.call.isGreeting = true
  passes : ¬g.Reports f → g = f

theorem IsAnswered.of_reports (hg : g.Reports f)
    (hf : (f.isOs = true ∧ y.call.isOpening = true) ∨ y.call.isGreeting = true) : y.IsAnswered f g :=
  ⟨⟨fun _ => hf, fun _ => hg⟩, fun hn => absurd hg hn⟩

theorem IsAnswered.self (hos : f.isOs = false ∨ y.call.isOpening = false)
    (hcall : y.call.isGreeting = false) : y.IsAnswered f f := by
  have hnot : ¬f.Reports f := fun h => f.cause_ne_self h.cause
  refine ⟨⟨fun h => absurd h hnot, fun h => ?_⟩, fun _ => rfl⟩
  rcases hos with hos | hos <;> simp [hos, hcall] at h

end Exchange

namespace Account

/-- The session is being started. -/
def Greets (i : Nat) (a : Account) : Prop :=
  ∃ x, a.world.sessions[i]? = some x ∧ x.started = true ∧ x.initialized = false

/-- All calls returned, or the fault that there is in the end answers for those that did not. -/
def Answered {α : Type} (a : Account) : Except Fault α → Prop
  | .ok _ => ∀ y ∈ a.exchanges, y.result.isOk = true
  | .error g => ∀ y ∈ a.exchanges, ∀ f, y.result = .error f → f.isOrdinary = true →
    y.IsAnswered f g

/-- The session is being started, and all calls so far returned. -/
abbrev Advances (i : Nat) (a : Account) : Prop := a.Greets i ∧ a.Answered (.ok ())

variable {i : Nat} {a a' : Account} {y : Exchange} {f g : Fault}
  {respond : Call → Setting → Except Fault Reply × Setting}

theorem Greets.modify (h : a.Greets i) {k : Session → Session}
    (hk : ∀ x, (k x).started = x.started ∧ (k x).initialized = x.initialized) :
    (a.update (·.modifySession i k)).Greets i := by
  obtain ⟨x, hx, hstarted, hinit⟩ := h
  refine ⟨k x, ?_, (hk x).1.trans hstarted, (hk x).2.trans hinit⟩
  exact getElem?_modify_self k hx

theorem Answered.any {α : Type} (h : a.Answered (.ok ())) (r : Except Fault α) : a.Answered r := by
  cases r with
  | ok u => exact h
  | error g =>
    intro y hy f hf
    have hok := h y hy
    rw [hf] at hok
    cases hok

/-- Only the last call failed. -/
theorem Answered.last {α : Type} (h : a.Answered (.ok ()))
    (hexchanges : a'.exchanges = a.exchanges ++ [y]) (hy : y.result = .error f)
    (hg : f.isOrdinary = true → y.IsAnswered f g) :
    a'.Answered (.error g : Except Fault α) := by
  intro z hz f' hf' hordinary
  rw [hexchanges, List.mem_append, List.mem_singleton] at hz
  rcases hz with hz | rfl
  · have hok := h z hz
    rw [hf'] at hok
    cases hok
  · rw [hy, Except.error.injEq] at hf'
    exact hf' ▸ hg (hf' ▸ hordinary)

end Account

namespace Session

variable {respond : Call → Setting → Except Fault Reply × Setting} {a : Account} {i : Nat}

theorem greets_change {f : World → World} (hf : ∀ a : Account, a.Greets i → (a.update f).Greets i) :
    (change f).Maintains (.ofAccounts respond) (Advances i) := by
  intro a h
  refine ⟨hf a h.1, fun y hy => h.2 y ?_⟩
  rwa [← exchanges_update a f]

theorem greets_modify {k : Session → Session}
    (hk : ∀ x, (k x).started = x.started ∧ (k x).initialized = x.initialized) :
    (modify i k).Maintains (.ofAccounts respond) (Advances i) := greets_change fun _ h => h.modify hk

section Calls

variable (hmild : ∀ (call : Call) (s : Setting),
    (s.world.happen (.called call)).AtMostStops i (respond call s).2.world)
include hmild

theorem leads_call (h : a.Advances i) (c : Call) :
    (Procedure.request c).Leads (.ofAccounts respond) a fun r a' => a'.Greets i ∧
      (∀ reply, r = .ok reply → a'.Answered (.ok ())) ∧
        ∀ f, r = .error f → ∃ y, y.call = c ∧ y.result = .error f ∧
          a'.exchanges = a.exchanges ++ [y] := by
  obtain ⟨⟨x, hx, hstarted, hinit⟩, hok⟩ := h
  rw [leads_exchange]
  have hmade := a.exchanges_exchange respond c
  refine ⟨?_, fun reply hr y hy => ?_, fun f hr => ⟨_, rfl, hr, hmade⟩⟩
  · obtain ⟨z, _, hz, _, hxz⟩ := hmild c a.setting x hx hstarted hinit
    exact ⟨z, hz, hxz.started.trans hstarted, hxz.initialized.trans hinit⟩
  · rw [hmade, List.mem_append, List.mem_singleton] at hy
    rcases hy with hy | rfl
    · exact hok y hy
    · rw [hr]
      rfl

/-- What a call comes to that is neither to open a transport nor to greet a server. -/
theorem leads_call_answered (h : a.Advances i) {c : Call} (hopening : c.isOpening = false)
    (hgreeting : c.isGreeting = false) {k : Reply → Procedure Unit}
    (hk : ∀ reply a', a'.Advances i → (k reply).Leads (.ofAccounts respond) a'
      fun r a'' => a''.Greets i ∧ a''.Answered r) :
    (Procedure.request c >>= k).Leads (.ofAccounts respond) a
      fun r a' => a'.Greets i ∧ a'.Answered r := by
  rw [leads_bind]
  refine (leads_call hmild h c).mono fun r a' hr => ?_
  obtain ⟨h', hok, herror⟩ := hr
  cases r with
  | ok reply => exact hk reply a' ⟨h', hok reply rfl⟩
  | error f =>
    obtain ⟨y, hcall, hy, hexchanges⟩ := herror f rfl
    refine ⟨h', h.2.last hexchanges hy fun _ => .self (.inr ?_) ?_⟩
    · rw [hcall, hopening]
    · rw [hcall, hgreeting]

theorem leads_wire_answered (h : a.Advances i) (n : Nat) : (do
    modify i fun s => { s with writer := some n }
    let _ ← Procedure.request (.setWriter i n)
    let _ ← Procedure.request (.readLoop i n)
    modify i fun s => { s with tasks := s.tasks + 1 } : Procedure Unit).Leads
      (.ofAccounts respond) a fun r a' => a'.Greets i ∧ a'.Answered r := by
  have hwritten : (modify i fun s => { s with writer := some n }).Maintains (.ofAccounts respond)
    (Advances i) := greets_modify fun _ => ⟨rfl, rfl⟩
  have hread : (modify i fun s => { s with tasks := s.tasks + 1 }).Maintains (.ofAccounts respond)
    (Advances i) := greets_modify fun _ => ⟨rfl, rfl⟩
  rw [leads_bind]
  refine (hwritten a h).mono fun r a₁ h₁ => ?_
  cases r with
  | error f => exact ⟨h₁.1, h₁.2.any _⟩
  | ok u =>
    refine leads_call_answered hmild h₁ rfl rfl fun _ a₂ h₂ =>
      leads_call_answered hmild h₂ rfl rfl fun _ a₃ h₃ => ?_
    exact (hread a₃ h₃).mono fun r _ hr => ⟨hr.1, hr.2.any r⟩

theorem leads_connect_answered (h : a.Advances i) (host : String) (port : Int) :
    (connect host port).Leads (.ofAccounts respond) a fun r a' => a'.Greets i ∧ a'.Answered r := by
  have hgood := maintains_compositional (.ofAccounts respond) (Advances i)
  have hcount : Maintains (.ofAccounts respond) (Advances i) (do
      change countConnection
      let number ← ask (·.connections)
      remark (.connected port)
      pure number) :=
    hgood.bind (greets_change fun _ h => h) fun _ => hgood.bind (fun _ h => h) fun _ =>
      hgood.bind (greets_change fun _ h => h) fun _ _ h => h
  rw [connect, leads_bind, leads_recoverOs]
  refine (leads_call hmild h (.connect host port)).mono fun r a' hr => ?_
  obtain ⟨h', hok, herror⟩ := hr
  cases r with
  | ok reply =>
    dsimp only [onError, onOk]
    exact (hcount a' ⟨h', hok reply rfl⟩).mono fun r _ hr => ⟨hr.1, hr.2.any r⟩
  | error f =>
    obtain ⟨y, hcall, hy, hexchanges⟩ := herror f rfl
    refine ⟨fun hos => ⟨h', ?_⟩, fun hos => ⟨h', ?_⟩⟩
    · refine h.2.last ((exchanges_update _ _).trans hexchanges) hy ?_
      exact fun _ => .of_reports ⟨.inr rfl, rfl⟩ (.inl ⟨hos, by rw [hcall]; rfl⟩)
    · exact h.2.last hexchanges hy fun _ => .self (.inl hos) (by rw [hcall]; rfl)

theorem leads_openTransport_answered (h : a.Advances i) (t : Transport) :
    (openTransport i t).Leads (.ofAccounts respond) a fun r a' => a'.Greets i ∧ a'.Answered r := by
  cases t with
  | socket host port =>
    rw [openTransport, openSocket, leads_bind]
    refine (leads_connect_answered hmild h host port).mono fun r a' hr => ?_
    cases r with
    | ok n =>
      dsimp only [onOk]
      exact leads_wire_answered hmild hr n
    | error g => exact hr
  | spawn command args directory =>
    rw [openTransport, spawn, leads_recoverOs, request, leads_bind]
    refine (leads_call hmild h _).mono fun r a' hr => ?_
    obtain ⟨h', hok, herror⟩ := hr
    cases r with
    | ok reply => exact ⟨h', hok reply rfl⟩
    | error f =>
      obtain ⟨y, hcall, hy, hexchanges⟩ := herror f rfl
      refine ⟨fun hos => ⟨h', h.2.last hexchanges hy fun _ => ?_⟩,
        fun hos => ⟨h', h.2.last hexchanges hy fun _ => ?_⟩⟩
      · exact .of_reports ⟨.inr rfl, rfl⟩ (.inl ⟨hos, by rw [hcall]; rfl⟩)
      · exact .self (.inl hos) (by rw [hcall]; rfl)
  | foreign v => exact ⟨h.1, h.2.any _⟩

theorem leads_greet (h : a.Advances i) {r : Request}
    (hr : (Call.client i r).isGreeting = true) (name : Value) :
    (request i r).Leads (.ofAccounts respond) a fun u a' => a'.Greets i ∧
      (∀ v, u = .ok v → a'.Answered (.ok ())) ∧ ∀ f, u = .error f →
        (f.isOrdinary = true → a'.Answered (.error (.handshakeFailed name f) : Except Fault Unit)) ∧
          (f.isOrdinary = false → a'.Answered (.error f : Except Fault Unit)) := by
  rw [request, leads_bind]
  refine (leads_call hmild h _).mono fun u a' hu => ?_
  obtain ⟨h', hok, herror⟩ := hu
  cases u with
  | ok reply => exact ⟨h', fun _ _ => hok reply rfl, fun f hf => by cases hf⟩
  | error f =>
    obtain ⟨y, hcall, hy, hexchanges⟩ := herror f rfl
    refine ⟨h', fun v hv => (by cases hv), fun g hg => ?_⟩
    rw [← Except.error.inj hg]
    refine ⟨fun _ => h.2.last hexchanges hy fun _ => ?_, fun hf => h.2.last hexchanges hy fun ho => ?_⟩
    · exact .of_reports ⟨.inl rfl, rfl⟩ (.inr (hcall ▸ hr))
    · rw [hf] at ho
      cases ho

theorem leads_handshake_answered (h : a.Advances i) (name : Value) :
    (handshake i name).Leads (.ofAccounts respond) a
      fun r a' => a'.Greets i ∧ a'.Answered r := by
  rw [handshake, leads_recoverOrdinary, leads_bind]
  refine (leads_greet hmild h (r := .beginHandshake) rfl name).mono fun r a₁ hr => ?_
  obtain ⟨h₁, hok, herror⟩ := hr
  cases r with
  | error f => exact ⟨fun hf => ⟨h₁, (herror f rfl).1 hf⟩, fun hf => ⟨h₁, (herror f rfl).2 hf⟩⟩
  | ok u =>
    refine (leads_greet hmild ⟨h₁, hok u rfl⟩ (r := .finishHandshake) rfl name).mono fun r a₂ hr => ?_
    obtain ⟨h₂, hok', herror'⟩ := hr
    cases r with
    | error f => exact ⟨fun hf => ⟨h₂, (herror' f rfl).1 hf⟩, fun hf => ⟨h₂, (herror' f rfl).2 hf⟩⟩
    | ok u => exact ⟨h₂, hok' u rfl⟩

/-- Unless the session runs at the end, its start has failed with a fault that answers for all. -/
theorem leads_start_answered {x : Session} (h : a.Has i x) (hfresh : x.started = false)
    (hlive : x.stopped = false) (hinit : x.initialized = false) (hempty : a.exchanges = []) :
    (start i).Leads (.ofAccounts respond) a fun r a' => (∀ y ∈ a'.exchanges, y.result.isOk = true) ∨
      a'.Greets i ∧ ∃ g, r = .error g ∧ a'.Answered r := by
  have h₁ : (a.update fun w => w.modifySession i fun s => { s with started := true }).Greets i :=
    ⟨{ x with started := true }, getElem?_modify_self _ h, rfl, hinit⟩
  have hnone : (a.update fun w => w.modifySession i fun s =>
      { s with started := true }).Answered (.ok ()) := by
    intro y hy
    rw [exchanges_update, hempty] at hy
    cases hy
  rw [start, leads_find_bind h]
  dsimp only
  rw [if_neg (by simp [hfresh, hlive]), leads_bind, modify, leads_change, onOk, leads_bind]
  refine (leads_openTransport_answered hmild ⟨h₁, hnone⟩ x.transport).mono fun r a₂ hr => ?_
  cases r with
  | error g => exact .inr ⟨hr.1, g, rfl, hr.2⟩
  | ok u =>
    dsimp only [onOk]
    rw [leads_bind]
    refine (leads_handshake_answered hmild hr x.name).mono fun r a₃ hr => ?_
    cases r with
    | error g => exact .inr ⟨hr.1, g, rfl, hr.2⟩
    | ok u =>
      have hok := hr.2
      dsimp only [onOk]
      rw [leads_bind, modify, leads_change, onOk, leads_post]
      refine ⟨fun _ _ => .inl fun y hy => hok y ?_, fun _ => .inl fun y hy => hok y ?_⟩
      · simpa using hy
      · simpa using hy

end Calls

/-- The session may be one that any run leads to, and other steps may be taken during the calls. The
start ends with a fault of its own if the call is to open a transport and its fault is one of the
operating system, or if the call belongs to the handshake. It ends with the call's fault otherwise. -/
theorem start_of_call_fault (limit depth : Nat) {directory : String} {log : LogDirectory}
    {script : Script} {steps : List Step} {m : Moment}
    (hm : m ∈ Step.runMoments limit depth steps (.start directory log script)) {s : Setting}
    (hs : s.world = m.world) {i : Nat} {x : Session} (hx : s.world.sessions[i]? = some x)
    (hfresh : x.started = false) (hlive : x.stopped = false) {y : Exchange}
    (hy : y ∈ (start i).exchanges (Call.respond (Step.leave limit depth)) s) {f : Fault}
    (hf : y.result = .error f) (hordinary : f.isOrdinary = true) :
    ∃ g, ((start i).run (Call.respond (Step.leave limit depth)) s).1 = .error g ∧
      (g.Reports f ↔ (f.isOs = true ∧ y.call.isOpening = true) ∨ y.call.isGreeting = true) ∧
      (¬g.Reports f → g = f) ∧
      ¬((start i).run (Call.respond (Step.leave limit depth)) s).2.world.Runs i := by
  have hunopened : s.world.Unopened := hs ▸ Step.unopened_moments limit depth _ _ _ _ hm
  have hinit := (hunopened x (List.mem_of_getElem? hx) hfresh).1
  have hstart := leads_start_answered (a := ⟨s, []⟩) (Step.atMostStops_respond limit depth i) hx
    hfresh hlive hinit rfl
  rw [leads_runs, exchanges_deeds] at hstart
  rcases hstart with hok | ⟨⟨z, hz, _, hstill⟩, g, hg, hanswered⟩
  -- Not all calls returned, for this one did not.
  · have hyok := hok y hy
    rw [hf] at hyok
    cases hyok
  · rw [hg, Answered, exchanges_deeds] at hanswered
    obtain ⟨hreports, hpasses⟩ := hanswered y hy f hf hordinary
    refine ⟨g, hg, hreports, hpasses, fun ⟨w, hw, hruns⟩ => ?_⟩
    have hwz : w = z := Option.some.inj (hw.symm.trans hz)
    rw [hwz, isRunning, hstill] at hruns
    cases hruns

/-- The first call of this sort will fail in this way. -/
def obstructedSetting (queue : Queue) (fault : Fault) : Setting :=
  .withSession (.once queue [] (some fault))

/-- The server refuses the handshake, and not for a reason of the operating system. -/
theorem start_of_handshake_fault :
    let s := obstructedSetting .beginHandshake (.raised .runtime "")
    ∃ g, ((start 0).run (Call.respond (Step.leave 9 9)) s).1 = .error g ∧
      g.Reports (.raised .runtime "") ∧
      ¬((start 0).run (Call.respond (Step.leave 9 9)) s).2.world.Runs 0 := by
  intro s
  obtain ⟨m, hm, hs⟩ := Step.exists_moment_leaveAll 9 (show 9 ≠ 0 by decide)
    [.newSession (.text "s") (.socket loopbackHost 2087) SessionOptions.standard] (by simp)
    (.unlogged (.once .beginHandshake [] (some (.raised .runtime ""))))
  obtain ⟨x, hx, hfresh, hlive⟩ : ∃ x, s.world.sessions[0]? = some x ∧ x.started = false ∧
      x.stopped = false := ⟨_, rfl, rfl, rfl⟩
  obtain ⟨y, hy, hcall, hf⟩ : ∃ y ∈ (start 0).exchanges (Call.respond (Step.leave 9 9)) s,
      y.call.isGreeting = true ∧ y.result = .error (.raised .runtime "") :=
    ⟨_, .tail _ (.tail _ (.tail _ (.head _))), rfl, rfl⟩
  obtain ⟨g, hg, hreports, _, hidle⟩ := start_of_call_fault 9 9 hm (s := s) hs.symm hx hfresh hlive
    hy hf rfl
  exact ⟨g, hg, hreports.mpr (.inr hcall), hidle⟩

/-- The connection is refused, and not for a reason of the operating system. The start ends with this
very fault. -/
theorem exists_unreported :
    let s := obstructedSetting .connect (.raised .value "")
    (∃ x, s.world.sessions[0]? = some x ∧ x.started = false ∧ x.stopped = false) ∧
      (∃ y ∈ (start 0).exchanges (Call.respond (Step.leave 9 9)) s,
        y.result = .error (.raised .value "") ∧ (Fault.raised .value "").isOrdinary = true) ∧
      ((start 0).run (Call.respond (Step.leave 9 9)) s).1 = .error (.raised .value "") ∧
      ¬(Fault.raised .value "").Reports (.raised .value "") :=
  ⟨⟨_, rfl, rfl, rfl⟩, ⟨_, .head _, rfl, rfl⟩, rfl, fun h => Fault.cause_ne_self _ h.cause⟩

end Session

end EditorClient
