import EditorClient.Proofs.AbortedActivation
import EditorClient.Proofs.LoneRun
import EditorClient.Proofs.OwnerSteps

/-! Scripts whose reactions take no steps. Nothing else happens during the calls that meet them. -/

namespace EditorClient

open Procedure

def Queue.isAssured : Queue → Bool
  | closeWriter | notify _ => true
  | _ => false

namespace Script

/-- No reaction takes steps, and a fault in one is such as the calls of its queue may raise. -/
structure IsTame (s : Script) : Prop where
  flat : ∀ queue, s.IsFlat queue
  allowed : ∀ queue, ∀ r ∈ s queue, ∀ f, r.fault = some f →
    f.isOrdinary = true ∧ queue.isAssured = false

variable {s : Script} {queue : Queue} {f : Fault}

theorem IsTame.next (h : s.IsTame) (hf : (s.next queue).fault = some f) :
    f.isOrdinary = true ∧ queue.isAssured = false := by
  unfold Script.next at hf
  cases hq : s queue with
  | nil =>
    rw [hq] at hf
    cases hf
  | cons r rs =>
    rw [hq] at hf
    exact h.allowed queue r (hq ▸ List.mem_cons_self ..) f hf

theorem IsTame.rest (h : s.IsTame) (queue : Queue) : (s.rest queue).IsTame where
  flat := fun other => (h.flat other).rest queue
  allowed := by
    intro other r hr
    unfold Script.rest at hr
    split at hr
    · exact h.allowed other r (List.mem_of_mem_tail hr)
    · exact h.allowed other r hr

theorem isTame_empty : empty.IsTame where
  flat := fun _ _ hr => by cases hr
  allowed := fun _ _ hr => by cases hr

theorem isTame_once (hf : f.isOrdinary = true) (hqueue : queue.isAssured = false) :
    (once queue [] (some f)).IsTame := by
  have hreaction : ∀ other, ∀ r ∈ once queue [] (some f) other,
      other = queue ∧ r = .mk [] (some f) 0 [] := by
    intro other r hr
    unfold once at hr
    split at hr
    · rename_i hother
      exact ⟨hother, List.mem_singleton.mp hr⟩
    · cases hr
  refine ⟨fun other r hr => ?_, fun other r hr g hg => ?_⟩
  · obtain ⟨_, rfl⟩ := hreaction other r hr
    rfl
  · obtain ⟨rfl, rfl⟩ := hreaction other r hr
    cases hg
    exact ⟨hf, hqueue⟩

end Script

namespace Call

/-- The queue of a call tells whether the call must return. -/
theorem exists_queue {c : Call} (hc : c.isAction = false) : ∃ queue : Queue,
    queue.isAssured = c.isAssured ∧ ∀ s : Script, c.react s = (s.next queue, s.rest queue) := by
  cases c with
  | act name reaction => cases hc
  | client session request => cases request <;> exact ⟨_, rfl, fun _ => rfl⟩
  | _ => exact ⟨_, rfl, fun _ => rfl⟩

theorem isLone_respond (take : Step → Setting → Setting) {c : Call} (hc : c.isAction = false)
    {s : Setting} (hs : s.script.IsTame) :
    (respond take c s).2.script.IsTame ∧
      Exchange.IsLone ⟨c, s, (respond take c s).1, (respond take c s).2⟩ := by
  obtain ⟨queue, hassured, hreact⟩ := exists_queue hc
  -- no step is taken, so the call leaves the world in which it was noted
  have hafter := respond_of_flat take (hreact _) (hs.flat queue)
  refine ⟨?_, congrArg Setting.world hafter, fun f hf => ?_⟩
  · rw [hafter]
    exact hs.rest queue
  · rw [← hassured]
    unfold respond at hf
    dsimp only at hf
    rw [hreact] at hf
    refine hs.next ?_
    cases hfault : (s.script.next queue).fault with
    | none =>
      rw [hfault] at hf
      cases hf
    | some g =>
      rw [hfault] at hf
      cases hf
      rfl

end Call

structure Account.IsTame (a : Account) : Prop where
  script : a.setting.script.IsTame
  lone : ∀ x ∈ a.exchanges, x.IsLone

theorem tame_change (take : Step → Setting → Setting) (f : World → World) :
    (change f).Maintains (.ofAccounts (Call.respond take)) Account.IsTame :=
  fun a h => ⟨h.script, (a.exchanges_update f).symm ▸ h.lone⟩

theorem ownerless_tame (take : Step → Setting → Setting) :
    Ownerless fun p => p.Maintains (.ofAccounts (Call.respond take)) Account.IsTame := by
  have hrequest : ∀ c : Call, c.isAction = false →
      (request c).Maintains (.ofAccounts (Call.respond take)) Account.IsTame := by
    intro c hc a h
    rw [leads_exchange]
    obtain ⟨hscript, hlone⟩ := Call.isLone_respond take hc h.script
    refine ⟨hscript, fun x hx => ?_⟩
    rw [Account.exchanges_exchange, List.mem_append, List.mem_singleton] at hx
    rcases hx with hx | rfl
    · exact h.lone x hx
    · exact hlone
  exact {
    toCompositional := maintains_compositional _ _
    quiet := fun hp => hp.maintains (fun a f _ h => tame_change take f a h) fun c hc => hrequest c (by
      rw [Call.isUsual, Bool.and_eq_true, Bool.not_eq_true'] at hc
      exact hc.2)
    request := hrequest
    apart := fun f _ => tame_change take f }

theorem Bootstrap.isLone_activate (take : Step → Setting → Setting) {s : Setting}
    (hs : s.script.IsTame) (i context : Nat) :
    ∀ x ∈ (activate i context).exchanges (Call.respond take) s, x.IsLone := by
  have h := ownerless_tame take
  have hactivate := h.activate (h.newController fun _ => tame_change take _)
    (h.startController (fun _ _ => tame_change take _) (fun _ _ => tame_change take _)
      fun _ _ => tame_change take _)
    (h.stopController (fun _ _ => tame_change take _) fun _ _ => tame_change take _)
    (fun _ _ => tame_change take _) i context
  have hlone := (leads_runs _ _ _).mp (hactivate ⟨s, []⟩ ⟨hs, fun _ hx => by cases hx⟩)
  rw [← exchanges_deeds _ s (Procedure.run _ _ s).2]
  exact hlone.lone

end EditorClient
