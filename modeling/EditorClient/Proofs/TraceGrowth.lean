import EditorClient.Proofs.ChannelSteps
import EditorClient.Proofs.Moment
import EditorClient.Proofs.SideBySide

/-! What has happened stays in the trace. A procedure that ends in bounds has then never been out of them,
if a longer trace does not bring a world back. -/

namespace EditorClient

namespace Procedure

variable {α β : Type}

/-- No update of a procedure's own takes back what has happened. -/
def Remembers : Procedure α → Prop
  | done _ => True
  | fail _ => True
  | read next => ∀ w, (next w).Remembers
  | update f next => (∀ w : World, w.trace <+: (f w).trace) ∧ next.Remembers
  | call _ next => ∀ r, (next r).Remembers

theorem Remembers.bind {p : Procedure α} {k : α → Procedure β} (hp : p.Remembers)
    (hk : ∀ a, (k a).Remembers) : (p >>= k).Remembers := by
  change (p.bind k).Remembers
  induction p with
  | done a => exact hk a
  | fail f => trivial
  | read next ih => exact fun w => ih w (hp w)
  | update f next ih => exact ⟨hp.1, ih hp.2⟩
  | call c next ih => exact fun r => ih r (hp r)

theorem Remembers.recover {p : Procedure α} {handler : Fault → Procedure α} (hp : p.Remembers)
    (hh : ∀ f, (handler f).Remembers) : (p.recover handler).Remembers := by
  induction p with
  | done a => trivial
  | fail f => exact hh f
  | read next ih => exact fun w => ih w (hp w)
  | update f next ih => exact ⟨hp.1, ih hp.2⟩
  | call c next ih => exact fun r => ih r (hp r)

theorem Remembers.recoverIf {p : Procedure α} {handler : Fault → Procedure α} {stops : Fault → Bool}
    (hp : p.Remembers) (hh : ∀ f, (handler f).Remembers) :
    (p.recover fun f => if stops f then handler f else fail f).Remembers := by
  refine hp.recover fun f => ?_
  split
  · exact hh f
  · trivial

theorem remembers_change {f : World → World} (hf : ∀ w : World, w.trace <+: (f w).trace) :
    (change f).Remembers := ⟨hf, trivial⟩

theorem remembers_happen (e : Event) : (happen e).Remembers :=
  remembers_change fun _ => List.prefix_append _ _

theorem remembers_request (c : Call) : (request c).Remembers := by
  intro r
  cases r with
  | ok reply => trivial
  | error f => trivial

theorem remembers_find {sort : ObjectSort} {objects : World → List α} {i : Nat} :
    (find sort objects i).Remembers := by
  intro w
  dsimp only
  split
  · trivial
  · trivial

theorem remembers_ofExcept (r : Except Fault α) : (ofExcept r).Remembers := by
  cases r with
  | ok a => trivial
  | error f => trivial

theorem remembers_post (p : Posting) : (post p).Remembers := by
  intro w
  dsimp only
  split
  · exact ⟨fun _ => List.prefix_append _ _, trivial⟩
  · refine remembers_change fun w => ?_
    obtain ⟨es, hes, _⟩ := (w.sparesChannels_post p).trace
    exact ⟨es, hes.symm⟩

theorem remembers_openChannel (name : String) : (openChannel name).Remembers := by
  refine Remembers.bind (fun _ => trivial) fun known => ?_
  cases known with
  | true => trivial
  | false =>
    have hdirectory : makeLogDirectory.Remembers := by
      refine Remembers.bind (remembers_happen _) fun _ =>
        Remembers.bind (fun _ => trivial) fun directory => ?_
      split
      · trivial
      · trivial
    exact Remembers.bind (.recoverIf (hdirectory.bind fun _ =>
      .bind (remembers_change fun _ => List.prefix_rfl) fun _ =>
        .bind (remembers_change fun _ => List.prefix_rfl) fun _ => remembers_happen _)
          fun _ => remembers_happen _) fun _ => trivial

theorem channelwise_remembers : Channelwise fun p => p.Remembers where
  bind := Remembers.bind
  recoverOrdinary := Remembers.recoverIf
  recoverOs := Remembers.recoverIf
  recover := Remembers.recover
  pure := fun _ => trivial
  throw := fun _ => trivial
  fail := fun _ _ => trivial
  remark := fun _ => remembers_happen _
  post := remembers_post
  notice := fun _ => remembers_request _
  command := fun _ => remembers_request _
  find := fun _ _ _ => remembers_find
  ask := fun _ _ => trivial
  index := fun _ _ _ _ => remembers_ofExcept _
  askDirectory := remembers_happen _
  addConfig := fun _ => remembers_change fun _ => List.prefix_rfl
  request := fun c _ => remembers_request c
  spare := fun f hf => remembers_change fun w => by
    obtain ⟨es, hes, _⟩ := (hf w).trace
    exact ⟨es, hes.symm⟩
  newSession := fun name _ _ => .bind (remembers_openChannel _) fun _ =>
    .bind (remembers_request _) fun _ => .bind (fun _ => trivial) fun _ =>
    .bind (remembers_change fun _ => List.prefix_rfl) fun _ => .bind (remembers_happen _) fun _ => trivial

end Procedure

open Procedure

theorem Step.remembers_procedure (limit : Nat) (step : Step) : (step.procedure limit).Remembers := by
  by_cases hstep : (Event.began step).isOfChannels = false
  · exact channelwise_remembers.procedure limit hstep
  cases step with
  | setLogDirectory directory =>
    exact .bind (remembers_change fun _ => List.prefix_rfl) fun _ => trivial
  | openChannel name =>
    exact .bind (remembers_openChannel name) fun _ => .bind (fun _ => trivial) fun _ =>
      .bind (fun _ => trivial) fun _ => trivial
  | writeChannel name level text =>
    exact .bind (remembers_openChannel name) fun _ => .bind (remembers_post _) fun _ => trivial
  | _ => exact absurd rfl hstep

section Growth

variable {take : Step → Setting → Setting}
  (hgrows : ∀ step s, s.world.trace <+: (take step s).world.trace)
include hgrows

theorem Step.trace_foldl (steps : List Step) (s : Setting) :
    s.world.trace <+: (steps.foldl (fun s step => take step s) s).world.trace := by
  induction steps generalizing s with
  | nil => exact List.prefix_rfl
  | cons step steps ih => exact (hgrows step s).trans (ih _)

theorem Call.trace_respond (c : Call) (s : Setting) :
    (s.world.happen (.called c)).trace <+: (c.respond take s).2.world.trace := by
  rw [Call.respond_snd]
  exact Step.trace_foldl hgrows _ (c.noted s)

end Growth

namespace Procedure.Remembers

variable {α : Type} {respond : Call → Setting → Except Fault Reply × Setting} {p : Procedure α}

theorem trace_run (hp : p.Remembers)
    (hrespond : ∀ c s, s.world.trace <+: (respond c s).2.world.trace) (s : Setting) :
    s.world.trace <+: (p.run respond s).2.world.trace := by
  induction p generalizing s with
  | done a => exact List.prefix_rfl
  | fail f => exact List.prefix_rfl
  | read next ih => exact ih s.world (hp s.world) s
  | update f next ih => exact (hp.1 s.world).trans (ih hp.2 { s with world := f s.world })
  | call c next ih => exact (hrespond c s).trans (ih _ (hp _) _)

theorem stays {bounds : World → Prop} (hp : p.Remembers)
    (hrespond : ∀ c s, s.world.trace <+: (respond c s).2.world.trace)
    (hbounds : ∀ w w' : World, w.trace <+: w'.trace → bounds w' → bounds w) {s : Setting}
    (h : bounds (p.run respond s).2.world) : p.Stays respond bounds s := by
  induction p generalizing s with
  | done a => trivial
  | fail f => trivial
  | read next ih => exact ih s.world (hp s.world) h
  | update f next ih =>
    exact ⟨hbounds _ _ (trace_run hp.2 hrespond { s with world := f s.world }) h, ih hp.2 h⟩
  | call c next ih => exact ⟨hbounds _ _ (trace_run (hp _) hrespond _) h, ih _ (hp _) h⟩

end Procedure.Remembers

end EditorClient
