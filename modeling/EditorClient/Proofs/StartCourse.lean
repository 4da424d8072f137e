import EditorClient.Proofs.LoneRun

/-! The course of a start during whose calls nothing else happens: how far it comes, and what is left of
it when something fails on the way. -/

namespace EditorClient

open Procedure

/-- How a procedure goes through its stages. It fails just if one of them does, for an ordinary
reason. -/
def Goes (es : List Event) (P : List Event → Option Fault → World → Prop) (a : Lone)
    (r : Except Fault Unit) (b : Lone) : Prop :=
  ∃ made fault, a.Runs es made fault b ∧ P made fault b.world ∧
    match fault with
    | none => r = .ok ()
    | some _ => ∃ f, r = .error f ∧ f.isOrdinary = true

section Goes

variable {a : Lone} {es es' : List Event} {P R : List Event → Option Fault → World → Prop}

theorem Goes.mono {r : Except Fault Unit} {b : Lone} (h : Goes es P a r b)
    (hp : ∀ made fault, a.world.Works made b.world → P made fault b.world → R made fault b.world) :
    Goes es R a r b := by
  obtain ⟨made, fault, hruns, hP, hr⟩ := h
  exact ⟨made, fault, hruns, hp made fault hruns.works hP, hr⟩

theorem leads_goes_bind {p : Procedure Unit} {k : Unit → Procedure Unit}
    (hp : p.Leads .lone a (Goes es P a))
    (hcut : ∀ made f w, P made (some f) w → R made (some f) w)
    (hk : ∀ made b, a.world.Works made b.world → P made none b.world →
      (k ()).Leads .lone b (Goes es' (fun made' => R (made ++ made')) b)) :
    (p >>= k).Leads .lone a (Goes (es ++ es') R a) := by
  rw [leads_bind]
  refine hp.mono ?_
  rintro r b ⟨made, fault, hruns, hP, hr⟩
  cases fault with
  | none =>
    subst hr
    refine (hk made b hruns.works hP).mono ?_
    rintro r' c ⟨made', fault', hruns', hR, hr'⟩
    exact ⟨_, _, hruns.append hruns', hR, hr'⟩
  | some f =>
    obtain ⟨g, rfl, hg⟩ := hr
    exact ⟨made, some f, hruns.cut es', hcut _ _ _ hP, g, rfl, hg⟩

/-- A call is a stage of its own. -/
theorem leads_goes_request {c : Call} {k : Reply → Procedure Unit} {l : List Event}
    (hfail : ∀ f, R [.called c] (some f) (a.world.happen (.called c)))
    (hk : ∀ reply, (k reply).Leads .lone
      ⟨a.world.happen (.called c), a.calls ++ [(c, .ok reply)]⟩ (Goes l
        (fun made => R (.called c :: made)) ⟨a.world.happen (.called c), a.calls ++ [(c, .ok reply)]⟩)) :
    (Procedure.request c >>= k).Leads .lone a (Goes (.called c :: l) R a) := by
  rw [leads_bind, leads_request]
  intro result hallowed
  cases result with
  | ok reply =>
    refine (hk reply).mono ?_
    rintro r b ⟨made, fault, hruns, hR, hr⟩
    exact ⟨_, _, (Lone.Runs.returned a c reply).append hruns, hR, hr⟩
  | error f =>
    exact ⟨_, some f, (Lone.Runs.failed a c f).cut l, hfail f, f, rfl, (hallowed f rfl).1⟩

theorem leads_goes_change {p : Procedure Unit} {f : World → World} (hf : a.world.Works [] (f a.world))
    (hp : p.Leads .lone ⟨f a.world, a.calls⟩ (Goes es P ⟨f a.world, a.calls⟩)) :
    (change f >>= fun _ => p).Leads .lone a (Goes es P a) := by
  rw [leads_bind, leads_change]
  refine hp.mono ?_
  rintro r b ⟨made, fault, hruns, hP, hr⟩
  exact ⟨made, fault, hruns.within hf (.refl _), hP, hr⟩

end Goes

/-- What belongs to the opening of a transport, with this number for the connection. -/
def Transport.stages (j n : Nat) : Transport → List Event
  | .socket host port =>
    [.called (.connect host port), .called (.setWriter j n), .called (.readLoop j n)]
  | .spawn command args directory => [.called (.client j (.startServer command args directory))]
  | .foreign _ => []

def Event.connection? : Event → Option Nat
  | .called (.setWriter _ n) => some n
  | _ => none

def Event.connections (made : List Event) : List Nat := made.filterMap Event.connection?

theorem Event.connections_append (made made' : List Event) :
    connections (made ++ made') = connections made ++ connections made' := List.filterMap_append

def Event.isReading : Event → Bool
  | .called (.readLoop ..) => true
  | _ => false

/-- How often the reading from a connection was begun. Where there is a fault, the last stage is the one
that has failed. -/
def Event.readings (made : List Event) (fault : Option Fault) : Nat :=
  (if fault.isSome then made.dropLast else made).countP Event.isReading

theorem Event.readings_prepend {made made' : List Event} (hmade : ∀ e ∈ made, e.isReading = false)
    (fault : Option Fault) : readings (made ++ made') fault = readings made' fault := by
  have hnone : ∀ es : List Event, (∀ e ∈ es, e.isReading = false) → es.countP isReading = 0 :=
    fun es hes => List.countP_eq_zero.mpr fun e he => by simp [hes e he]
  cases fault with
  | none => simp [readings, hnone made hmade]
  | some f =>
    by_cases hne : made' = []
    · have hlast := hnone _ fun e he => hmade e (List.dropLast_subset _ he)
      simp [readings, hne, hlast]
    · simp [readings, List.dropLast_append_of_ne_nil hne, hnone made hmade]

theorem Event.readings_append {made made' : List Event} {fault : Option Fault}
    (hmade : ∀ e ∈ made', e.isReading = false) (hne : fault.isSome = true → made' ≠ []) :
    readings (made ++ made') fault = readings made none := by
  have hnone : ∀ es : List Event, (∀ e ∈ es, e.isReading = false) → es.countP isReading = 0 :=
    fun es hes => List.countP_eq_zero.mpr fun e he => by simp [hes e he]
  cases fault with
  | none => simp [readings, hnone made' hmade]
  | some f =>
    have hlast := hnone _ fun e he => hmade e (List.dropLast_subset _ he)
    simp [readings, List.dropLast_append_of_ne_nil (hne rfl), hlast]

namespace Session

variable {a : Lone} {j : Nat} {x : Session}

/-- What belongs to the start of a session. -/
def stages (j n : Nat) (t : Transport) : List Event :=
  t.stages j n ++ [.called (.client j .beginHandshake), .called (.client j .finishHandshake)]

structure IsUnwired (x : Session) : Prop where
  writer : x.writer = none
  tasks : x.tasks = 0

structure IsNew (x : Session) : Prop extends IsUnwired x where
  started : x.started = false
  stopped : x.stopped = false
  initialized : x.initialized = false

def wired (x : Session) (made : List Event) (fault : Option Fault) : Session :=
  { x with writer := (Event.connections made).head?, tasks := Event.readings made fault }

def begun (x : Session) (made : List Event) (fault : Option Fault) : Session :=
  { x.wired made fault with started := true, initialized := fault.isNone }

theorem IsUnwired.wired (h : x.IsUnwired) {made : List Event} {fault : Option Fault}
    (hmade : Event.connections made = []) (hreadings : Event.readings made fault = 0) :
    x.wired made fault = x := by
  rw [Session.wired, hmade, hreadings, List.head?_nil, ← h.writer, ← h.tasks]

theorem lone_request (r : Request) (a : Lone) :
    (request j r).Leads .lone a (Goes [.called (.client j r)] (fun made _ w =>
      made = [.called (.client j r)] ∧ w.sessions = a.world.sessions) a) :=
  leads_goes_request (l := []) (fun _ => ⟨rfl, rfl⟩) fun _ =>
    ⟨[], none, ⟨⟨[], (List.append_nil _).symm, .finished⟩, .refl _⟩, ⟨rfl, rfl⟩, rfl⟩

/-- Stages at which a session is neither wired nor read from. -/
structure AreApart (made : List Event) (fault : Option Fault) : Prop where
  connections : Event.connections made = []
  readings : ∀ e ∈ made, e.isReading = false
  ne_nil : fault.isSome = true → made ≠ []

theorem lone_handshake (name : Value) (a : Lone) :
    (handshake j name).Leads .lone a (Goes
      [.called (.client j .beginHandshake), .called (.client j .finishHandshake)] (fun made fault w =>
      AreApart made fault ∧ w.sessions = a.world.sessions) a) := by
  rw [handshake, leads_recoverOrdinary]
  have hboth : (do
      request j .beginHandshake
      request j .finishHandshake : Procedure Unit).Leads .lone a (Goes
        ([.called (.client j .beginHandshake)] ++ [.called (.client j .finishHandshake)])
        (fun made fault w => AreApart made fault ∧ w.sessions = a.world.sessions) a) := by
    refine leads_goes_bind (lone_request .beginHandshake a) (fun _ _ _ h => ?_) fun made b _ hb =>
      (lone_request .finishHandshake b).mono fun r c hc =>
        hc.mono fun made' fault _ h => ⟨?_, h.2.trans hb.2⟩
    · rw [h.1]
      exact ⟨⟨rfl, by simp [Event.isReading], by simp⟩, h.2⟩
    · rw [hb.1, h.1]
      exact ⟨rfl, by simp [Event.isReading], by simp⟩
  refine hboth.mono fun r b hr => ?_
  cases r with
  | ok u => exact hr
  | error f =>
    obtain ⟨made, fault, hruns, hw, hf⟩ := hr
    cases fault with
    | none => cases hf
    | some g =>
      obtain ⟨f', hf', hord⟩ := hf
      cases hf'
      exact ⟨fun _ => ⟨made, some g, hruns, hw, _, rfl, rfl⟩, fun h => by rw [hord] at h; cases h⟩

theorem lone_connect (host : String) (port : Int) (a : Lone) :
    (connect host port).Leads .lone a fun r b => b.world.sessions = a.world.sessions ∧
      match r with
      | .ok n => n = a.world.connections + 1 ∧
        a.Runs [.called (.connect host port)] [.called (.connect host port)] none b
      | .error f => f.isOrdinary = true ∧
        ∃ g, a.Runs [.called (.connect host port)] [.called (.connect host port)] (some g) b := by
  rw [connect, leads_bind, leads_recoverOs, Procedure.leads_request]
  intro result hallowed
  cases result with
  | error f =>
    have hfailed := Lone.Runs.failed a (.connect host port) f
    exact ⟨fun _ => ⟨rfl, rfl, f, hfailed.within (.refl _) (.remark _ _)⟩,
      fun _ => ⟨rfl, (hallowed f rfl).1, f, hfailed⟩⟩
  | ok reply =>
    have hcounted : ∀ w, World.Works [] w (countConnection w) := fun w =>
      ⟨.of_trace rfl, rfl, rfl, rfl, rfl, rfl, fun _ h => h⟩
    exact ⟨rfl, rfl, (Lone.Runs.returned a (.connect host port) reply).within (.refl _)
      ((hcounted _).trans (.remark _ _))⟩

/-- From the connection on. -/
theorem lone_wire (hx : a.world.sessions[j]? = some x) (hnew : x.IsUnwired) (n : Nat) (host : String)
    (port : Int) :
    (do
      modify j fun s => { s with writer := some n }
      let _ ← Procedure.request (.setWriter j n)
      let _ ← Procedure.request (.readLoop j n)
      modify j fun s => { s with tasks := s.tasks + 1 } : Procedure Unit).Leads .lone a
        (Goes [.called (.setWriter j n), .called (.readLoop j n)] (fun made fault w =>
          w.sessions[j]? = some (x.wired (.called (.connect host port) :: made) fault)) a) := by
  have hwritten := getElem?_modify_self (fun s : Session => { s with writer := some n }) hx
  have htasks := hnew.tasks
  refine leads_goes_change (.modifySession _ j _) (leads_goes_request (fun f => ?_) fun _ =>
    leads_goes_request (fun f => ?_) fun _ => ?_)
  · refine hwritten.trans (congrArg some ?_)
    simp only [wired, htasks]
    rfl
  · refine hwritten.trans (congrArg some ?_)
    simp only [wired, htasks]
    rfl
  · refine ⟨[], none, ⟨⟨[], (List.append_nil _).symm, .finished⟩, .modifySession _ j _⟩, ?_, rfl⟩
    refine (getElem?_modify_self _ hwritten).trans (congrArg some ?_)
    simp only [wired, htasks]
    rfl

theorem lone_openSocket (hx : a.world.sessions[j]? = some x) (hnew : x.IsUnwired) (host : String)
    (port : Int) :
    (openSocket j host port).Leads .lone a (Goes
      ((Transport.socket host port).stages j (a.world.connections + 1))
      (fun made fault w => w.sessions[j]? = some (x.wired made fault)) a) := by
  rw [openSocket, leads_bind]
  refine (lone_connect host port a).mono ?_
  rintro r b ⟨hsessions, hr⟩
  have hb : b.world.sessions[j]? = some x := by rw [hsessions, hx]
  cases r with
  | error f =>
    obtain ⟨hord, g, hruns⟩ := hr
    have hunwired : x.wired [.called (.connect host port)] (some g) = x := hnew.wired rfl rfl
    exact ⟨_, some g, hruns.cut _, hunwired.symm ▸ hb, f, rfl, hord⟩
  | ok n =>
    obtain ⟨rfl, hruns⟩ := hr
    refine (lone_wire hb hnew _ host port).mono ?_
    rintro r c ⟨made, fault, hruns', hc, hr⟩
    exact ⟨_, fault, hruns.append hruns', hc, hr⟩

theorem lone_openTransport (hx : a.world.sessions[j]? = some x) (hnew : x.IsUnwired) {t : Transport}
    (ht : ∀ v, t ≠ .foreign v) :
    (openTransport j t).Leads .lone a (Goes (t.stages j (a.world.connections + 1))
      (fun made fault w => w.sessions[j]? = some (x.wired made fault)) a) := by
  cases t with
  | socket host port => exact lone_openSocket hx hnew host port
  | foreign v => exact absurd rfl (ht v)
  | spawn command args directory =>
    rw [openTransport, spawn, leads_recoverOs]
    refine (lone_request _ a).mono fun r b hr => ?_
    have hgoes := hr.mono (R := fun made fault w => w.sessions[j]? = some (x.wired made fault))
      fun made fault _ h => by
        rw [h.2, h.1, hnew.wired rfl (by cases fault <;> rfl), hx]
    cases r with
    | ok u => exact hgoes
    | error f =>
      refine ⟨fun _ => ?_, fun _ => hgoes⟩
      obtain ⟨made, fault, hruns, hw, hf⟩ := hgoes
      cases fault with
      | none => cases hf
      | some g => exact ⟨made, some g, hruns, hw, _, rfl, rfl⟩

/-- The part of a start in which calls are made. -/
theorem lone_course (hx : a.world.sessions[j]? = some x) (hnew : x.IsUnwired)
    (ht : ∀ v, x.transport ≠ .foreign v) :
    (do
      openTransport j x.transport
      handshake j x.name : Procedure Unit).Leads .lone a
        (Goes (stages j (a.world.connections + 1) x.transport)
          (fun made fault w => w.sessions[j]? = some (x.wired made fault)) a) := by
  refine leads_goes_bind (lone_openTransport hx hnew ht) (fun _ _ _ h => h) fun made b _ hb =>
    (lone_handshake x.name b).mono fun r c hc => hc.mono fun made' fault _ h => ?_
  rw [h.2, hb, wired, wired, Event.connections_append, h.1.connections, List.append_nil,
    Event.readings_append h.1.readings h.1.ne_nil]

theorem lone_markInitialized (hx : a.world.sessions[j]? = some x) (slug : String) (name : Value) :
    (do
      modify j fun s => { s with initialized := true }
      Procedure.post (.sessionStarted slug name) : Procedure Unit).Leads .lone a fun r b =>
        b.calls = a.calls ∧ a.world.Works [] b.world ∧
        b.world.sessions[j]? = some { x with initialized := true } ∧
        (a.world.refusal? (Posting.sessionStarted slug name).record = none → r = .ok ()) := by
  have hmarked : (a.world.modifySession j fun s => { s with initialized := true }).sessions[j]? =
      some { x with initialized := true } := getElem?_modify_self _ hx
  have hworks := World.Works.modifySession a.world j fun s => { s with initialized := true }
  have hposted := hworks.trans (.post_silent _ (p := .sessionStarted slug name) rfl)
  rw [leads_bind, modify, leads_change]
  refine (leads_post _ _).mpr ⟨fun f hf => ⟨rfl, hworks.trans (.happen _ (.refused _)), hmarked,
    fun hnone => ?_⟩, fun _ =>
    ⟨rfl, hposted, ?_, fun _ => rfl⟩⟩
  · cases hf.symm.trans hnone
  · exact (congrArg (·[j]?) (World.Alike.post _ _).sessions).trans hmarked

/-- A start comes as far as its calls go well. If all do, then it ends well unless the record of it
cannot be written. -/
theorem lone_start (hx : a.world.sessions[j]? = some x) (hnew : x.IsNew)
    (ht : ∀ v, x.transport ≠ .foreign v) :
    (start j).Leads .lone a fun r b => ∃ made fault,
      a.Runs (stages j (a.world.connections + 1) x.transport) made fault b ∧
      b.world.sessions[j]? = some (x.begun made fault) ∧
      match fault with
      | none => a.world.refusal? (Posting.sessionStarted x.slug x.name).record = none → r = .ok ()
      | some _ => ∃ f, r = .error f ∧ f.isOrdinary = true := by
  have hstarted : (a.world.modifySession j fun s => { s with started := true }).sessions[j]? =
      some { x with started := true } := getElem?_modify_self _ hx
  have hbefore := World.Works.modifySession a.world j fun s => { s with started := true }
  rw [start, find, Procedure.leads_find_bind hx]
  dsimp only
  rw [if_neg (by simp [hnew.started, hnew.stopped]), leads_bind, modify, leads_change]
  dsimp only [onOk]
  rw [← LawfulMonad.bind_assoc, leads_bind]
  refine (lone_course (x := { x with started := true }) hstarted ⟨hnew.writer, hnew.tasks⟩ ht).mono ?_
  rintro r b ⟨made, fault, hruns, hb, hr⟩
  cases fault with
  | some g =>
    -- a stage has failed and so does the start; the session is left as it is
    obtain ⟨f, rfl, hord⟩ := hr
    refine ⟨made, some g, hruns.within hbefore (.refl _), ?_, f, rfl, hord⟩
    rw [hb, begun, wired, wired]
    exact congrArg some (by rw [hnew.initialized]; rfl)
  | none =>
    subst hr
    refine (lone_markInitialized hb x.slug x.name).mono ?_
    rintro r ⟨w, calls⟩ ⟨rfl, hworks, hc, hr⟩
    refine ⟨made, none, hruns.within hbefore hworks, hc, fun hwrite => hr ?_⟩
    exact hruns.works.takesAll _ hwrite

theorem lone_closeWriter (hx : a.world.sessions[j]? = some x) :
    (closeWriter j).Leads .lone a fun r b => r = .ok () ∧
      a.world.Works (x.writer.toList.map fun n => .called (.closeWriter n)) b.world ∧
      b.world.sessions[j]? = some { x with writer := none } := by
  rw [closeWriter, find, Procedure.leads_find_bind hx]
  split
  · rename_i n hn
    rw [leads_bind, Procedure.leads_request, hn]
    intro result hallowed
    have hclosed := World.Works.happen a.world (.called (.closeWriter n))
    cases result with
    | error f => cases (hallowed f rfl).2
    | ok reply =>
      refine ⟨rfl, ?_, getElem?_modify_self _ hx⟩
      exact hclosed.trans (.modifySession _ j fun s => { s with writer := none })
  · rename_i hn
    rw [hn]
    refine ⟨rfl, .refl _, ?_⟩
    rw [← hn]
    exact hx

theorem lone_askToStop (hx : a.world.sessions[j]? = some x) (slug : String) (name : Value) :
    (do
      request j (.stop (← find j).tasks)
      Procedure.post (.sessionStopped slug name) : Procedure Unit).Leads .lone a fun r b =>
        (∀ f, r = .error f → f.isOrdinary = true) ∧
        a.world.Works [.called (.client j (.stop x.tasks))] b.world ∧
        b.world.sessions[j]? = some x := by
  rw [find, Procedure.leads_find_bind hx, leads_bind]
  refine (lone_request _ a).mono ?_
  rintro r b ⟨made, fault, hruns, ⟨hmade, hsessions⟩, hr⟩
  subst hmade
  have hb : b.world.sessions[j]? = some x := by rw [hsessions, hx]
  cases r with
  | error f =>
    refine ⟨fun g hg => ?_, hruns.works, hb⟩
    cases fault with
    | none => cases hr
    | some f' =>
      obtain ⟨f'', hf, hord⟩ := hr
      cases hf
      cases hg
      exact hord
  | ok u =>
    refine (leads_post _ _).mpr ⟨fun f hf => ⟨fun g hg => ?_, ?_, hb⟩, fun _ =>
      ⟨fun _ hg => (by cases hg), ?_, ?_⟩⟩
    · cases hg
      exact World.isOrdinary_of_refusal hf
    · exact hruns.works.trans (.happen b.world (.refused (.sessionStopped slug name)))
    · exact hruns.works.trans (.post_silent b.world (p := .sessionStopped slug name) rfl)
    · exact (congrArg (·[j]?) (World.Alike.post _ _).sessions).trans hb

/-- What belongs to the end of a session that was given up. -/
def parting (j : Nat) (x : Session) : List Event :=
  (x.writer.toList.map fun n => .called (.closeWriter n)) ++ [.called (.client j (.stop x.tasks))]

theorem length_connections_le {es : List (Call × Except Fault Reply)} {made : List Event}
    {fault : Option Fault} {n : Nat} {t : Transport} (h : Stages (stages j n t) es made fault) :
    (Event.connections made).length ≤ 1 := by
  refine Nat.le_trans (h.isPrefix.filterMap Event.connection?).length_le ?_
  cases t with
  | socket host port => exact Nat.le_refl 1
  | spawn command args directory => exact Nat.zero_le 1
  | foreign v => exact Nat.zero_le 1

theorem parting_begun {made : List Event} (h : (Event.connections made).length ≤ 1) (x : Session)
    (fault : Option Fault) : (x.begun made fault).parting j =
      ((Event.connections made).map fun n => .called (.closeWriter n)) ++
        [.called (.client j (.stop (Event.readings made fault)))] := by
  have hlist : (Event.connections made).head?.toList = Event.connections made := by
    match Event.connections made, h with
    | [], _ => rfl
    | [n], _ => rfl
  rw [parting, begun, wired, hlist]

/-- Nothing is asked of the server of a session that never ran. -/
theorem lone_stop (hx : a.world.sessions[j]? = some x) (hstopped : x.stopped = false)
    (hinitialized : x.initialized = false) :
    (stop j).Leads .lone a fun r b => (∀ f, r = .error f → f.isOrdinary = true) ∧
      a.world.Works (x.parting j) b.world ∧ b.world.Stopped j := by
  have hmarked : (a.world.modifySession j fun s => { s with stopped := true }).sessions[j]? =
      some { x with stopped := true } := getElem?_modify_self _ hx
  have hbefore := World.Works.modifySession a.world j fun s => { s with stopped := true }
  rw [stop, find, Procedure.leads_find_bind hx, if_neg (by simp [hstopped]), leads_bind, modify,
    leads_change]
  dsimp only [onOk]
  rw [if_neg (by simp [hinitialized]), leads_bind]
  refine (lone_closeWriter (a := ⟨_, a.calls⟩) hmarked).mono ?_
  rintro r b ⟨hr, hclosed, hb⟩
  subst hr
  refine (lone_askToStop hb x.slug x.name).mono ?_
  rintro r c ⟨hr, hasked, hc⟩
  exact ⟨hr, (hbefore.trans hclosed).trans hasked, _, hc, rfl⟩

end Session

/-- How a notice shows in the trace. That of a log takes what is said under the client's own root logger
and is not below the level in force. -/
def Notifier.tells (n : Notifier) (w : World) (notice : Notice) : List Event :=
  match n with
  | .host => [.called (.notify notice)]
  | .log logger =>
    if w.emits (Posting.notice logger notice).record ∧ Logger.reaches Logger.root logger then
      [.posted (.notice logger notice)]
    else []
  | .absent => []

theorem Notifier.tells_of_levels (n : Notifier) {w w' : World} (h : w'.levels = w.levels)
    (notice : Notice) : n.tells w' notice = n.tells w notice := by
  cases n with
  | log logger =>
    dsimp only [tells]
    rw [World.emits_of_levels h]
  | _ => rfl

/-- A log to which notices of failed starts can be written, if they go to a log. -/
def Notifier.CanTell (n : Notifier) (w : World) : Prop :=
  ∀ logger, n = .log logger → ∀ f, w.refusal? (Posting.notice logger (.startFailed f)).record = none

theorem Notifier.CanTell.takesAll {n : Notifier} {w w' : World} (h : n.CanTell w)
    (hw : w.TakesAll w') : n.CanTell w' := fun logger hn f => hw _ (h logger hn f)

namespace Controller

variable {a : Lone} {j k : Nat} {x : Session} {n : Notifier}

theorem lone_release (hx : a.world.sessions[j]? = some x) (hstopped : x.stopped = false)
    (hinitialized : x.initialized = false) :
    (release k j).Leads .lone a fun r b => r = .ok () ∧ a.world.Works (x.parting j) b.world ∧
      b.world.Stopped j := by
  have hcalled : (Lone.mk (a.world.callSession k (.stop j)) a.calls).world.sessions[j]? = some x := hx
  rw [release, leads_recoverOrdinary, stopSession, leads_bind, leads_change]
  refine (Session.lone_stop hcalled hstopped hinitialized).mono ?_
  rintro r b ⟨hr, hafter, hb⟩
  have hworks := (World.Works.callSession a.world k (.stop j)).trans hafter
  cases r with
  | ok u => exact ⟨rfl, hworks, hb⟩
  | error f =>
    refine ⟨fun _ => ⟨rfl, ?_, hb⟩, fun hf => ?_⟩
    · simpa using hworks.trans (.remark b.world (.releaseFailed f))
    · rw [hr f rfl] at hf
      cases hf

theorem lone_notifyFailure (hn : n.CanTell a.world) (fault : Fault) :
    (notifyFailure n fault).Leads .lone a fun r b => r = .ok () ∧
      a.world.Works (n.tells a.world (.startFailed fault)) b.world ∧
      b.world.sessions = a.world.sessions := by
  cases n with
  | absent => exact ⟨rfl, .refl _, rfl⟩
  | host =>
    change (Procedure.request (.notify (.startFailed fault)) >>= fun _ => pure ()).Leads .lone a _
    rw [leads_bind, leads_request]
    intro result hallowed
    cases result with
    | error f => cases (hallowed f rfl).2
    | ok reply => exact ⟨rfl, .happen a.world (.called (.notify (.startFailed fault))), rfl⟩
  | log logger =>
    have hworks := World.Works.post a.world (.notice logger (.startFailed fault))
    refine (leads_post (.notice logger (.startFailed fault)) _).mpr ⟨fun f hf => ?_, fun _ => ?_⟩
    · rw [Passage.world_lone, hn logger rfl fault] at hf
      cases hf
    · exact ⟨rfl, hworks, (World.Alike.post _ _).sessions⟩

/-- The session runs, and its controller is registered for cleanup. -/
structure Launched (k j context : Nat) (n : Notifier) (made : List Event) (w w' : World) : Prop where
  did : w.Did made w'
  controller : w'.controllers[k]? = some ⟨n, some j, .running⟩
  runs : ∃ y, w'.sessions[j]? = some y ∧ y.isRunning = true
  contexts : w'.contexts = w.contexts.modify context fun c =>
    { c with subscriptions := c.subscriptions ++ [w.disposables.length] }
  disposables : w'.disposables = w.disposables ++ [⟨.stopController k, false⟩]

/-- The user has been told and the session given up. -/
structure Abandoned (k j : Nat) (n : Notifier) (made : List Event) (w w' : World) : Prop where
  did : ∃ fault, w.Did (made ++ n.tells w' (.startFailed fault) ++
    ((Event.connections made).map fun m => .called (.closeWriter m)) ++
      [.called (.client j (.stop (Event.readings made (some fault))))]) w'
  controller : w'.controllers[k]? = some ⟨n, none, .failed⟩
  stopped : w'.Stopped j
  contexts : w'.contexts = w.contexts
  disposables : w'.disposables = w.disposables

/-- What a start comes to, by how far its session has come. -/
structure Started (k j context : Nat) (n : Notifier) (x : Session) (a : Lone) (made : List Event)
    (fault : Option Fault) (r : Except Fault Bool) (b : Lone) : Prop where
  stages : ∃ cs rest, b.calls = a.calls ++ cs ++ rest ∧
    Stages (Session.stages j (a.world.connections + 1) x.transport) cs made fault
  runs : fault = none → a.world.refusal? (Posting.sessionStarted x.slug x.name).record = none →
    r = .ok true ∧ b.world.bootstraps = a.world.bootstraps ∧
      Launched k j context n made a.world b.world
  fails : fault.isSome = true → n.CanTell a.world →
    r = .ok false ∧ b.world.bootstraps = a.world.bootstraps ∧
      Abandoned k j n made a.world b.world

/-- Where the start of a controller stands when that of its session has ended. -/
structure Begun (k j : Nat) (n : Notifier) (x : Session) (a : Lone) (made : List Event)
    (fault : Option Fault) (b : Lone) : Prop where
  stages : ∃ cs, b.calls = a.calls ++ cs ∧
    Stages (Session.stages j (a.world.connections + 1) x.transport) cs made fault
  did : a.world.Did made b.world
  controller : b.world.controllers[k]? = some ⟨n, none, .starting⟩
  session : b.world.sessions[j]? = some (x.begun made fault)
  contexts : b.world.contexts = a.world.contexts
  bootstraps : b.world.bootstraps = a.world.bootstraps
  disposables : b.world.disposables = a.world.disposables
  takesAll : a.world.TakesAll b.world

variable {b : Lone} {made : List Event} {fault : Option Fault} {context : Nat}

/-- All that is left to show is where the start is sure to come to an end. -/
theorem Begun.leads_started (h : Begun k j n x a made fault b) {p : Procedure Bool}
    (hruns : fault = none → a.world.refusal? (Posting.sessionStarted x.slug x.name).record = none →
      p.Leads .lone b fun r c => r = .ok true ∧ c.world.bootstraps = a.world.bootstraps ∧
        Launched k j context n made a.world c.world)
    (hfails : fault.isSome = true → n.CanTell a.world →
      p.Leads .lone b fun r c => r = .ok false ∧ c.world.bootstraps = a.world.bootstraps ∧
        Abandoned k j n made a.world c.world) :
    p.Leads .lone b fun r c => ∃ made fault, Started k j context n x a made fault r c := by
  obtain ⟨cs, hcs, hstages⟩ := h.stages
  have hcalls : p.Leads .lone b fun _ c => ∃ cs rest, c.calls = a.calls ++ cs ++ rest ∧
      Stages (Session.stages j (a.world.connections + 1) x.transport) cs made fault :=
    (leads_lone_calls p b).mono fun _ c ⟨rest, hrest⟩ => ⟨cs, rest, by rw [hrest, hcs], hstages⟩
  cases fault with
  | none =>
    by_cases hwrite : a.world.refusal? (Posting.sessionStarted x.slug x.name).record = none
    · exact ((hruns rfl hwrite).and_lone hcalls).mono fun r c hr =>
        ⟨made, none, hr.2, fun _ _ => hr.1, fun hsome => (by cases hsome)⟩
    · exact hcalls.mono fun r c hr =>
        ⟨made, none, hr, fun _ hw => absurd hw hwrite, fun hsome => (by cases hsome)⟩
  | some g =>
    by_cases htell : n.CanTell a.world
    · exact ((hfails rfl htell).and_lone hcalls).mono fun r c hr =>
        ⟨made, some g, hr.2, fun hnone => (by cases hnone), fun _ _ => hr.1⟩
    · exact hcalls.mono fun r c hr =>
        ⟨made, some g, hr, fun hnone => (by cases hnone), fun _ ht => absurd ht htell⟩

theorem lone_running (h : Begun k j n x a made none b) (hx : x.stopped = false) (context : Nat)
    (name : Value) :
    (do
      modify k fun c => { c with session := some j, state := .running }
      Procedure.change (addSubscription (.stopController k) context)
      Procedure.remark (.clientRunning name)
      pure true : Procedure Bool).Leads .lone b fun r c => r = .ok true ∧
        c.world.bootstraps = a.world.bootstraps ∧ Launched k j context n made a.world c.world := by
  have hruns : (x.begun made none).isRunning = true := by
    simp [Session.isRunning, Session.begun, Session.wired, hx]
  refine ⟨rfl, h.bootstraps, ?_⟩
  exact {
    did := h.did.remark (r := .clientRunning name) rfl
    controller := getElem?_modify_self _ h.controller
    runs := ⟨_, h.session, hruns⟩
    contexts := by rw [← h.contexts, ← h.disposables]; rfl
    disposables := by rw [← h.disposables]; rfl }

theorem lone_startFailed {g : Fault} (h : Begun k j n x a made (some g) b)
    (hn : n.CanTell a.world) (hx : x.stopped = false) (name : Value) (f : Fault) :
    (do
      startFailed k j name f
      pure false : Procedure Bool).Leads .lone b fun r c => r = .ok false ∧
        c.world.bootstraps = a.world.bootstraps ∧ Abandoned k j n made a.world c.world := by
  obtain ⟨cs, _, hstages⟩ := h.stages
  have hfailed := getElem?_modify_self (fun c : Controller => { c with state := .failed })
    h.controller
  have hremarked : a.world.Did made ((b.world.modifyController k fun c =>
    { c with state := .failed }).remark (.startFailed name f)) := h.did.remark rfl
  rw [leads_bind, startFailed, leads_bind, modify, leads_change]
  dsimp only [onOk]
  rw [leads_bind, leads_remark]
  dsimp only [onOk]
  rw [find, Procedure.leads_find_bind hfailed, leads_bind]
  refine (lone_notifyFailure (a := ⟨(b.world.modifyController k fun c =>
    { c with state := .failed }).remark (.startFailed name f), b.calls⟩)
    (hn.takesAll h.takesAll) f).mono ?_
  rintro r c ⟨hr, htold, hsessions⟩
  subst hr
  have hc : c.world.sessions[j]? = some (x.begun made (some g)) := by
    rw [hsessions]
    exact h.session
  refine (lone_release hc hx rfl).mono ?_
  rintro r d ⟨hr, hparted, hstopped⟩
  subst hr
  refine ⟨rfl, (hparted.bootstraps.trans htold.bootstraps).trans h.bootstraps, ⟨f, ?_⟩, ?_, hstopped,
    ?_, ?_⟩
  · have hlevels : d.world.levels = _ := hparted.levels.trans htold.levels
    rw [n.tells_of_levels hlevels, List.append_assoc,
      ← Session.parting_begun (Session.length_connections_le hstages) x (some f)]
    exact (hremarked.trans htold.did).trans hparted.did
  · rw [hparted.controllers, htold.controllers]
    exact hfailed
  · exact (hparted.contexts.trans htold.contexts).trans h.contexts
  · exact (hparted.disposables.trans htold.disposables).trans h.disposables

theorem lone_start (hk : a.world.controllers[k]? = some ⟨n, none, .unstarted⟩)
    (hx : a.world.sessions[j]? = some x) (hnew : x.IsNew) (ht : ∀ v, x.transport ≠ .foreign v)
    (context : Nat) :
    (start k j context).Leads .lone a fun r b => ∃ made fault,
      Started k j context n x a made fault r b := by
  have hstarting := getElem?_modify_self (fun c : Controller => { c with state := .starting }) hk
  have hbefore : a.world.Did [] ((a.world.modifyController k fun c =>
      { c with state := .starting }).remark (.startingClient x.name)) :=
    World.did_happen _ _
  rw [leads_goOn hk hx, goOn, leads_bind, leads_recoverOrdinary, leads_bind]
  rw [startSession, leads_bind, leads_change]
  refine (Session.lone_start (a := ⟨((a.world.modifyController k fun c =>
    { c with state := .starting }).remark (.startingClient x.name)).callSession k (.start j),
      a.calls⟩) hx hnew ht).mono ?_
  rintro r b ⟨made, fault, hruns, hb, hr⟩
  have hbegun : Begun k j n x a made fault b :=
    ⟨hruns.calls, hbefore.trans hruns.works.did, by rw [hruns.works.controllers]; exact hstarting, hb,
      hruns.works.contexts, hruns.works.bootstraps, hruns.works.disposables, hruns.works.takesAll⟩
  cases r with
  | ok u =>
    dsimp only [onOk]
    rw [leads_pure]
    dsimp only [onError, onOk]
    rw [if_pos rfl]
    refine hbegun.leads_started (fun hnone _ => ?_) fun hsome _ => ?_
    · subst hnone
      exact lone_running hbegun hnew.stopped context x.name
    · obtain ⟨g, rfl⟩ := Option.isSome_iff_exists.mp hsome
      obtain ⟨_, hr, _⟩ := hr
      cases hr
  | error f =>
    -- if every call has returned, then it is the record of the start that cannot be written
    have hunwritten : fault = none →
        a.world.refusal? (Posting.sessionStarted x.slug x.name).record ≠ none := by
      rintro rfl hwrite
      cases hr hwrite
    refine ⟨fun _ => ?_, fun hf => ?_⟩
    · rw [← leads_bind]
      refine hbegun.leads_started (fun hnone hwrite => absurd hwrite (hunwritten hnone))
        fun hsome htell => ?_
      obtain ⟨g, rfl⟩ := Option.isSome_iff_exists.mp hsome
      rw [leads_bind]
      refine (lone_startFailed hbegun htell hnew.stopped x.name f).mono ?_
      rintro r c ⟨rfl, hfailed⟩
      exact ⟨rfl, hfailed⟩
    · change (throw f : Procedure Bool).Leads .lone b fun r b => ∃ made fault,
        Started k j context n x a made fault r b
      refine hbegun.leads_started (fun hnone hwrite => absurd hwrite (hunwritten hnone))
        fun hsome _ => ?_
      obtain ⟨g, rfl⟩ := Option.isSome_iff_exists.mp hsome
      obtain ⟨_, hr, hord⟩ := hr
      cases hr
      rw [hord] at hf
      cases hf

end Controller

end EditorClient
