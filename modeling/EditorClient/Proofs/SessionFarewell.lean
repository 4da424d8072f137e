import EditorClient.Proofs.FailedStart
import EditorClient.Proofs.SessionConnection

/-! What the first stop of a session asks of its client. All comes in order and nothing twice, but a
connection that cannot be closed keeps the client from being told. -/

namespace EditorClient

open Account Procedure

namespace Session

/-- The server of a session with a handshake is asked to shut down, the connection that was opened is
closed, and then the client is told to stop, just if the closing does not fail. -/
structure Farewell (i : Nat) (x : Session) (trace : List Event)
    (asked closing telling : List Exchange) : Prop where
  asked : asked.map Exchange.call <+:
    if x.initialized then [.client i .shutdown, .client i .exit] else []
  closed : ∃ opened : Option Nat, (∀ n, .called (.setWriter i n) ∈ trace ↔ opened = some n) ∧
    closing.map Exchange.call = opened.toList.map .closeWriter
  told : (∀ y ∈ closing, y.result.isOk = true) →
    ∃ tasks, telling.map Exchange.call = [.client i (.stop tasks)]
  untold : (∃ y ∈ closing, y.result.isOk = false) → telling = []

variable {respond : Call → Setting → Except Fault Reply × Setting} {a : Account} {i : Nat}
  {x : Session}

section Stopped

variable (hspares : ∀ (call : Call) (s : Setting),
    (s.world.happen (.called call)).LeavesStopped i (respond call s).2.world)
include hspares

theorem leads_request_told (hstop : x.stopped = true) (h : a.Has i x) (r : Request) :
    (request i r).Leads (.ofAccounts respond) a fun u a' => a'.Has i x ∧
      ∃ y, y.call = .client i r ∧ a'.exchanges = a.exchanges ++ [y] ∧
        ∀ f, u = .error f → y.result = .error f := by
  rw [request, leads_bind, leads_exchange]
  have h' := has_exchange hspares hstop (.client i r) h
  have hmade := a.exchanges_exchange respond (.client i r)
  cases hr : (a.made respond (.client i r)).result with
  | ok reply => exact ⟨h', _, rfl, hmade, fun f hf => by cases hf⟩
  | error f =>
    refine ⟨h', _, rfl, hmade, fun g hg => ?_⟩
    rw [hr, Except.error.inj hg]

theorem leads_askToEnd (hstop : x.stopped = true) (h : a.Has i x) :
    (do
      request i .shutdown
      request i .exit : Procedure Unit).Leads (.ofAccounts respond) a fun r a' => a'.Has i x ∧
        ∃ asked, a'.exchanges = a.exchanges ++ asked ∧
          asked.map Exchange.call <+: [.client i .shutdown, .client i .exit] ∧
            ∀ f, r = .error f → ∃ y ∈ asked, y.result = .error f := by
  rw [leads_bind]
  refine (leads_request_told hspares hstop h .shutdown).mono fun r a₁ hr => ?_
  obtain ⟨h₁, y₁, hcall₁, hexchanges₁, hfault₁⟩ := hr
  cases r with
  | error f =>
    refine ⟨h₁, [y₁], hexchanges₁, by simp [hcall₁], fun g hg => ⟨y₁, by simp, ?_⟩⟩
    exact hfault₁ g (by simpa using hg)
  | ok u =>
    refine (leads_request_told hspares hstop h₁ .exit).mono fun r a₂ hr => ?_
    obtain ⟨h₂, y₂, hcall₂, hexchanges₂, hfault₂⟩ := hr
    refine ⟨h₂, [y₁, y₂], ?_, by simp [hcall₁, hcall₂], fun g hg => ⟨y₂, by simp, hfault₂ g hg⟩⟩
    rw [hexchanges₂, hexchanges₁, List.append_assoc]
    rfl

theorem leads_shutDown_asked (hstop : x.stopped = true) (h : a.Has i x) (name : Value) :
    (shutDown i name).Leads (.ofAccounts respond) a fun r a' => a'.Has i x ∧
      ∃ asked, a'.exchanges = a.exchanges ++ asked ∧
        asked.map Exchange.call <+: [.client i .shutdown, .client i .exit] ∧
          ∀ f, r = .error f → ∃ y ∈ asked, y.isOrdinary = false := by
  rw [shutDown, leads_recoverOrdinary]
  refine (leads_askToEnd hspares hstop h).mono fun r a' hr => ?_
  obtain ⟨h', asked, hexchanges, hasked, hfault⟩ := hr
  cases r with
  | ok u => exact ⟨h', asked, hexchanges, hasked, fun f hf => by cases hf⟩
  | error f =>
    refine ⟨fun _ => ⟨h', asked, ?_, hasked, fun g hg => by cases hg⟩,
      fun hf => ⟨h', asked, hexchanges, hasked, ?_⟩⟩
    · rw [Passage.update_ofAccounts, exchanges_update]
      exact hexchanges
    · intro _ _
      obtain ⟨y, hy, hyf⟩ := hfault f rfl
      exact ⟨y, hy, by simp [Exchange.isOrdinary, hyf, hf]⟩

/-- There is one call at most, and it decides whether the stop goes on. -/
theorem leads_closeWriter_closed (hstop : x.stopped = true) (h : a.Has i x) :
    (closeWriter i).Leads (.ofAccounts respond) a fun r a' =>
      ∃ closing, a'.exchanges = a.exchanges ++ closing ∧
        closing.map Exchange.call = x.writer.toList.map .closeWriter ∧
          ((∀ y ∈ closing, y.result.isOk = true) ∧ r = .ok () ∧ a'.Has i { x with writer := none } ∨
            (∃ y ∈ closing, y.result.isOk = false) ∧ ∃ f, r = .error f) := by
  rw [closeWriter, leads_find_bind h]
  split
  · rename_i n hn
    rw [leads_bind, leads_exchange]
    have hmade := a.exchanges_exchange respond (.closeWriter n)
    have h' := has_exchange hspares hstop (.closeWriter n) h
    have hcall : [a.made respond (.closeWriter n)].map Exchange.call =
        x.writer.toList.map .closeWriter := by simp [hn, made]
    cases hr : (a.made respond (.closeWriter n)).result with
    | error f =>
      exact ⟨_, hmade, hcall, .inr ⟨⟨_, List.mem_singleton_self _, by rw [hr]; rfl⟩, f, rfl⟩⟩
    | ok reply =>
      refine ⟨_, (exchanges_update _ _).trans hmade, hcall, .inl ⟨fun y hy => ?_, rfl, ?_⟩⟩
      · rw [List.mem_singleton.mp hy, hr]
        rfl
      · exact getElem?_modify_self _ h'
  · rename_i hn
    exact ⟨[], by simp, by simp [hn], .inl ⟨by simp, rfl, by rwa [← hn]⟩⟩

/-- Whatever comes of it, the client has been told, and once. -/
theorem leads_askToStop_told (hstop : x.stopped = true) (h : a.Has i x) (p : Posting) :
    (do
      request i (.stop (← find i).tasks)
      Procedure.post p : Procedure Unit).Leads (.ofAccounts respond) a fun _ a' =>
        ∃ y, y.call = .client i (.stop x.tasks) ∧ a'.exchanges = a.exchanges ++ [y] := by
  rw [leads_find_bind h, leads_bind]
  refine (leads_request_told hspares hstop h _).mono fun r a' hr => ?_
  obtain ⟨_, y, hcall, hexchanges, _⟩ := hr
  cases r with
  | error f => exact ⟨y, hcall, hexchanges⟩
  | ok u =>
    exact (leads_post _ _).mpr ⟨fun _ _ => ⟨y, hcall, (exchanges_update _ _).trans hexchanges⟩,
      fun _ => ⟨y, hcall, (exchanges_update _ _).trans hexchanges⟩⟩

/-- The end of a stop, from the closing of the connection. -/
theorem leads_release_farewell (hstop : x.stopped = true) (h : a.Has i x) (p : Posting) :
    (do
      closeWriter i
      request i (.stop (← find i).tasks)
      Procedure.post p : Procedure Unit).Leads (.ofAccounts respond) a fun _ a' =>
        ∃ closing telling, a'.exchanges = a.exchanges ++ closing ++ telling ∧
          closing.map Exchange.call = x.writer.toList.map .closeWriter ∧
          ((∀ y ∈ closing, y.result.isOk = true) →
            ∃ tasks, telling.map Exchange.call = [.client i (.stop tasks)]) ∧
          ((∃ y ∈ closing, y.result.isOk = false) → telling = []) := by
  rw [leads_bind]
  refine (leads_closeWriter_closed hspares hstop h).mono fun r a₁ hr => ?_
  obtain ⟨closing, hexchanges, hclosing, ⟨hclosed, rfl, h₁⟩ | ⟨⟨y, hy, hyf⟩, f, rfl⟩⟩ := hr
  · refine (leads_askToStop_told (x := { x with writer := none }) hspares hstop h₁ p).mono
      fun r a₂ hr => ?_
    obtain ⟨y, hcall, hexchanges'⟩ := hr
    refine ⟨closing, [y], by rw [hexchanges', hexchanges], hclosing, fun _ => ⟨x.tasks, ?_⟩, ?_⟩
    · simp [hcall]
    · rintro ⟨z, hz, hzf⟩
      rw [hclosed z hz] at hzf
      cases hzf
  · refine ⟨closing, [], by rw [hexchanges, List.append_nil], hclosing, fun hclosed => ?_,
      fun _ => rfl⟩
    rw [hclosed y hy] at hyf
    cases hyf

theorem leads_stop_farewell {trace : List Event} (h : a.Has i x) (hlive : x.stopped = false)
    (hopened : ∀ n, .called (.setWriter i n) ∈ trace ↔ x.writer = some n)
    (hempty : a.exchanges = []) :
    (stop i).Leads (.ofAccounts respond) a fun _ a' =>
      (∀ y ∈ a'.exchanges, y.call = .client i .shutdown ∨ y.call = .client i .exit →
        y.isOrdinary = true) →
      ∃ asked closing telling, a'.exchanges = asked ++ closing ++ telling ∧
        Farewell i x trace asked closing telling := by
  rw [stop, leads_find_bind h, if_neg (by simp [hlive]), leads_bind, modify, leads_change]
  have h₁ : (a.update fun w => w.modifySession i fun s => { s with stopped := true }).Has i
      { x with stopped := true } := getElem?_modify_self _ h
  have hempty₁ : (a.update fun w => w.modifySession i fun s =>
      { s with stopped := true }).exchanges = [] := (exchanges_update _ _).trans hempty
  dsimp only [onOk]
  by_cases hinit : x.initialized = true
  · rw [if_pos hinit, leads_bind]
    refine (leads_shutDown_asked hspares rfl h₁ x.name).mono fun r a₂ hr => ?_
    obtain ⟨h₂, asked, hexchanges, hasked, hfault⟩ := hr
    rw [hempty₁, List.nil_append] at hexchanges
    cases r with
    -- Only a fault that is not ordinary gets past the asking, and there is none.
    | error f =>
      intro hordinary
      obtain ⟨y, hy, hyf⟩ := hfault f rfl
      have hcall := hasked.mem (List.mem_map_of_mem hy)
      rw [hordinary y (hexchanges ▸ hy) (by simpa using hcall)] at hyf
      cases hyf
    | ok u =>
      refine (leads_release_farewell hspares rfl h₂ _).mono fun r a₃ hr _ => ?_
      obtain ⟨closing, telling, hexchanges', hclosing, htold, huntold⟩ := hr
      refine ⟨asked, closing, telling, by rw [hexchanges', hexchanges], ?_, ⟨x.writer, hopened,
        hclosing⟩, htold, huntold⟩
      rwa [if_pos hinit]
  · rw [if_neg hinit]
    refine (leads_release_farewell hspares rfl h₁ _).mono fun r a₃ hr _ => ?_
    obtain ⟨closing, telling, hexchanges', hclosing, htold, huntold⟩ := hr
    refine ⟨[], closing, telling, ?_, List.nil_prefix, ⟨x.writer, hopened, hclosing⟩, htold, huntold⟩
    rw [hexchanges', hempty₁]

end Stopped

/-- The session may be in any state that a run leads to. Of the calls made by its stop, those for its
server may fail for ordinary reasons, and the others in any way. -/
theorem stop_farewell (limit depth : Nat) {directory : String} {log : LogDirectory}
    {script : Script} {steps : List Step} {m : Moment}
    (hm : m ∈ Step.runMoments limit depth steps (.start directory log script)) {s : Setting}
    (hs : s.world = m.world) {i : Nat} {x : Session} (hx : s.world.sessions[i]? = some x)
    (hlive : x.stopped = false)
    (hordinary : ∀ y ∈ (stop i).exchanges (Call.respond (Step.leave limit depth)) s,
      y.call = .client i .shutdown ∨ y.call = .client i .exit → y.isOrdinary = true) :
    ∃ asked closing telling, (stop i).exchanges (Call.respond (Step.leave limit depth)) s =
      asked ++ closing ++ telling ∧ Farewell i x s.world.trace asked closing telling := by
  have hattached : s.world.Attached := hs ▸ Step.attached_moments limit depth _ _ _ _ hm
  have hstop := leads_stop_farewell (a := ⟨s, []⟩) (Step.leavesStopped_respond limit depth i) hx hlive
    (hattached.mem_trace_iff hx hlive) rfl
  rw [leads_runs, exchanges_deeds] at hstop
  exact hstop hordinary

/-- The session runs, and the first call of this sort will fail. -/
def failingSetting (queue : Queue) : Setting :=
  Step.leaveAll 9 9 [.startSession 1] (.withSession (.once queue [] (some (.raised .runtime ""))))

/-- The server cannot be shut down. -/
theorem stop_farewell_of_shutdown_failed :
    let s := failingSetting .shutdown
    let exchanges := (stop 0).exchanges (Call.respond (Step.leave 9 9)) s
    exchanges.map (·.call.queue?) = [some .shutdown, some .closeWriter, some .stopClient] ∧
      ∃ x asked closing telling, s.world.sessions[0]? = some x ∧ x.initialized = true ∧
        exchanges = asked ++ closing ++ telling ∧
        Farewell 0 x s.world.trace asked closing telling := by
  intro s exchanges
  obtain ⟨m, hm, hs⟩ := Step.exists_moment_leaveAll 9 (show 9 ≠ 0 by decide)
    [.newSession (.text "s") (.socket loopbackHost 2087) SessionOptions.standard, .startSession 1]
    (by simp) (.unlogged (.once .shutdown [] (some (.raised .runtime ""))))
  obtain ⟨x, hx, hlive, hinit⟩ : ∃ x, s.world.sessions[0]? = some x ∧ x.stopped = false ∧
      x.initialized = true := ⟨_, rfl, rfl, rfl⟩
  have hall : exchanges.all (·.isOrdinary) = true := by decide +kernel
  have hfarewell := stop_farewell 9 9 hm (s := s) hs.symm hx hlive fun y hy _ =>
    List.all_eq_true.mp hall y hy
  obtain ⟨asked, closing, telling, hexchanges, hparts⟩ := hfarewell
  exact ⟨by decide +kernel, x, asked, closing, telling, hx, hinit, hexchanges, hparts⟩

/-- The connection cannot be closed. The client is not told to stop, nor will it be. -/
theorem exists_untold :
    let respond := Call.respond (Step.leave 9 9)
    let s := failingSetting .closeWriter
    (∃ x, s.world.sessions[0]? = some x ∧ x.isRunning = true ∧ x.writer = some 1) ∧
      (∀ y ∈ (stop 0).exchanges respond s, y.isOrdinary = true) ∧
      (∀ y ∈ (stop 0).exchanges respond s, y.call.queue? ≠ some .stopClient) ∧
      (stop 0).exchanges respond ((stop 0).run respond s).2 = [] := by
  intro respond s
  have hall : ((stop 0).exchanges respond s).all
      (fun y => y.isOrdinary && y.call.queue? != some .stopClient) = true := by decide +kernel
  have hboth : ∀ y ∈ (stop 0).exchanges respond s,
      y.isOrdinary = true ∧ y.call.queue? ≠ some .stopClient := fun y hy => by
    simpa using List.all_eq_true.mp hall y hy
  exact ⟨⟨_, rfl, rfl, rfl⟩, fun y hy => (hboth y hy).1, fun y hy => (hboth y hy).2, by rfl⟩

end Session

end EditorClient
