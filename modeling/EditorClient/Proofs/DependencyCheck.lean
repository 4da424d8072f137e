import EditorClient.Proofs.CheckedServer

/-! The check of a server's dependency in its whole course: the commands that it runs, the messages that
it shows, and what it comes to, whatever comes of each of them. -/

namespace EditorClient

open Procedure

/-- What a result says of a module and the interpreter that is to have it. -/
structure PreflightResult.Reports (found : PreflightStatus) (interpreter module : String)
    (r : PreflightResult) : Prop where
  status : r.status = found
  interpreter : r.interpreter = interpreter
  module : r.module = module
  ok : r.ok = true ↔ found ≠ .installFailed
  reason : r.reason.isSome = true ↔ found = .installFailed

structure Exchange.Shows (x : Exchange) (severity : Severity) (notice : Notice) : Prop where
  call : x.call = .notify notice
  severity : notice.severity = severity
  returned : ∃ reply, x.result = .ok reply

/-- The installation of a module that is missing, and the message about it. -/
inductive InstallationCourse (interpreter module : String) :
    List Exchange → Except Fault PreflightResult → Prop
  | broken {x : Exchange} {f : Fault}
      (hx : x.Breaks (.process [interpreter, "-m", "pip", "install", module]) f)
      (hf : f.isOs = false) : InstallationCourse interpreter module [x] (.error f)
  | installed {x y : Exchange} {r : PreflightResult}
      (hx : x.Succeeds [interpreter, "-m", "pip", "install", module])
      (hy : y.Shows .information (.installationDone module))
      (hr : r.Reports .installed interpreter module) :
      InstallationCourse interpreter module [x, y] (.ok r)
  | unannounced {x y : Exchange} {f : Fault}
      (hx : x.Succeeds [interpreter, "-m", "pip", "install", module])
      (hy : y.Breaks (.notify (.installationDone module)) f) :
      InstallationCourse interpreter module [x, y] (.error f)
  | failed {x y : Exchange} {r : PreflightResult}
      (hx : x.Fails [interpreter, "-m", "pip", "install", module])
      (hy : y.Shows .error (.installationFailed module))
      (hr : r.Reports .installFailed interpreter module) :
      InstallationCourse interpreter module [x, y] (.error (.notInstalled r))
  | unreported {x y : Exchange} {f : Fault}
      (hx : x.Fails [interpreter, "-m", "pip", "install", module])
      (hy : y.Breaks (.notify (.installationFailed module)) f) :
      InstallationCourse interpreter module [x, y] (.error f)

/-- The calls of a check one after another, and what it comes to: each call is made because of what came
of those before it. -/
inductive DependencyCourse (interpreter module : String) :
    List Exchange → Except Fault PreflightResult → Prop
  | broken {x : Exchange} {f : Fault}
      (hx : x.Breaks (.process [interpreter, "-c", "import " ++ module]) f)
      (hf : f.isOs = false) : DependencyCourse interpreter module [x] (.error f)
  | present {x : Exchange} {r : PreflightResult}
      (hx : x.Succeeds [interpreter, "-c", "import " ++ module])
      (hr : r.Reports .present interpreter module) :
      DependencyCourse interpreter module [x] (.ok r)
  | unwarned {x y : Exchange} {f : Fault}
      (hx : x.Fails [interpreter, "-c", "import " ++ module])
      (hy : y.Breaks (.notify (.dependencyMissing module interpreter)) f) :
      DependencyCourse interpreter module [x, y] (.error f)
  | missing {x y : Exchange} {xs : List Exchange} {r : Except Fault PreflightResult}
      (hx : x.Fails [interpreter, "-c", "import " ++ module])
      (hy : y.Shows .warning (.dependencyMissing module interpreter))
      (hxs : InstallationCourse interpreter module xs r) :
      DependencyCourse interpreter module (x :: y :: xs) r

namespace Procedure

variable {α β : Type} {respond : Call → Setting → Except Fault Reply × Setting}

/-- Wherever the procedure runs, this holds of its calls and of what it comes to. -/
def Performs (respond : Call → Setting → Except Fault Reply × Setting) (p : Procedure α)
    (post : List Exchange → Except Fault α → Prop) : Prop :=
  ∀ s, post (p.exchanges respond s) (p.run respond s).1

variable {p : Procedure α} {k : α → Procedure β} {post : List Exchange → Except Fault β → Prop}

theorem Performs.bind {first : List Exchange → Except Fault α → Prop}
    (hp : p.Performs respond first) (hfail : ∀ xs f, first xs (.error f) → post xs (.error f))
    (hk : ∀ xs a, first xs (.ok a) → (k a).Performs respond fun ys r => post (xs ++ ys) r) :
    (p >>= k).Performs respond post := by
  intro s
  have hfirst := hp s
  cases hr : p.run respond s with
  | mk r t =>
    rw [hr] at hfirst
    cases r with
    | error f =>
      have hexchanges : (p >>= k).exchanges respond s = p.exchanges respond s := by
        rw [← exchanges_deeds _ s s, deeds_bind_of_error hr, exchanges_deeds]
      rw [hexchanges, run_bind, hr]
      exact hfail _ f hfirst
    | ok a =>
      rw [exchanges_bind_of_ok hr, run_bind_of_ok k hr]
      exact hk _ a hfirst t

theorem performs_remark_bind {r : Remark} {k : Unit → Procedure β}
    (hk : (k ()).Performs respond post) : (remark r >>= k).Performs respond post :=
  fun s => hk { s with world := s.world.remark r }

theorem performs_pure {b : β} (h : post [] (.ok b)) : (pure b : Procedure β).Performs respond post :=
  fun _ => h

theorem performs_throw {f : Fault} (h : post [] (.error f)) :
    (throw f : Procedure β).Performs respond post := fun _ => h

theorem performs_request (c : Call) :
    (request c).Performs respond fun xs r => ∃ x, xs = [x] ∧ x.call = c ∧ x.result = r := by
  intro s
  cases hr : (respond c s).1 with
  | ok reply => exact ⟨⟨c, s, (respond c s).1, (respond c s).2⟩, by simp [request, exchanges, hr],
      rfl, by simp [request, run, hr]⟩
  | error f => exact ⟨⟨c, s, (respond c s).1, (respond c s).2⟩, by simp [request, exchanges, hr],
      rfl, by simp [request, run, hr]⟩

/-- A message is shown once before the procedure goes on; a fault of the host ends it. -/
theorem performs_notify_host_bind {notice : Notice} {k : Unit → Procedure β}
    (hbroken : ∀ x f, x.Breaks (.notify notice) f → post [x] (.error f))
    (hk : ∀ x, x.Shows notice.severity notice →
      (k ()).Performs respond fun xs r => post (x :: xs) r) :
    (Notifier.host.notify notice >>= k).Performs respond post := by
  change ((request (.notify notice) >>= fun _ => pure ()) >>= k).Performs respond post
  rw [LawfulMonad.bind_assoc]
  refine (performs_request (.notify notice)).bind ?_ ?_
  · rintro _ f ⟨x, rfl, hcall, hresult⟩
    exact hbroken x f ⟨hcall, hresult⟩
  · rintro _ reply ⟨x, rfl, hcall, hresult⟩
    exact hk x ⟨hcall, rfl, reply, hresult⟩

/-- A command is run once before the procedure goes on, which it does unless the command fails in
another way than by an exit code or a fault of the operating system. -/
theorem performs_succeeds_bind {program : String} {args : List String} {k : Bool → Procedure β}
    (hbroken : ∀ x f, x.Breaks (.process (program :: args)) f → f.isOs = false →
      post [x] (.error f))
    (hk : ∀ x b, x.Judged (program :: args) (.ok b) →
      (k b).Performs respond fun xs r => post (x :: xs) r) :
    (succeeds program args >>= k).Performs respond post := by
  have hjudged : (succeeds program args).Performs respond fun xs r =>
      ∃ x, xs = [x] ∧ x.Judged (program :: args) r := by
    intro s
    have hh : (succeeds program args).Leads (.ofAccounts respond) ⟨s, []⟩ _ :=
      leads_succeeds program args ⟨s, []⟩
    rw [leads_runs, exchanges_deeds] at hh
    exact hh
  refine hjudged.bind ?_ ?_
  · rintro _ f ⟨x, rfl, hx, hf⟩
    exact hbroken x f hx hf
  · rintro _ b ⟨x, rfl, hx⟩
    exact hk x b hx

end Procedure

theorem PreflightResult.reports_of_found {found : PreflightStatus}
    (hfound : found ≠ .installFailed) (interpreter module : String) :
    Reports found interpreter module ⟨found, interpreter, module, none⟩ where
  status := rfl
  interpreter := rfl
  module := rfl
  ok := by simp [ok, hfound]
  reason := by simp [hfound]

theorem reports_failedInstallation (interpreter module : String) :
    PreflightResult.Reports .installFailed interpreter module
      (failedInstallation interpreter module) where
  status := rfl
  interpreter := rfl
  module := rfl
  ok := by simp [PreflightResult.ok, failedInstallation]
  reason := by simp [failedInstallation]

end EditorClient
