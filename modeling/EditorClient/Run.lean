import EditorClient.Setting
import EditorClient.Step

/-! Runs of steps against a script. During a call the collaborator's reaction takes its own steps,
so that any operation may begin while another is under way. -/

namespace EditorClient

def Request.queue : Request → Queue
  | startServer .. => .startServer
  | beginHandshake => .beginHandshake
  | finishHandshake => .finishHandshake
  | shutdown => .shutdown
  | exit => .exit
  | stop _ => .stopClient
  | fileEvent .. => .fileEvent

namespace Call

def queue? : Call → Option Queue
  | process _ => some .process
  | makeClient _ => some .makeClient
  | connect .. => some .connect
  | setWriter .. => some .setWriter
  | readLoop .. => some .readLoop
  | client _ request => some request.queue
  | closeWriter _ => some .closeWriter
  | notify notice => some (.notify notice.severity)
  | act .. => none

/-- The reaction to a call and the script after it. A scripted action brings its own. -/
def react (c : Call) (script : Script) : Reaction × Script :=
  match c with
  | act _ reaction => (reaction, script)
  | c =>
    match c.queue? with
    | some queue => (script.next queue, script.rest queue)
    | none => (.plain, script)

/-- The call is noted, the steps of the reaction are taken, and its fault, if any, ends the call. -/
def respond (take : Step → Setting → Setting) (c : Call) (s : Setting) :
    Except Fault Reply × Setting :=
  let reacted := c.react s.script
  let noted : Setting := ⟨s.world.happen (.called c), reacted.2⟩
  let after := reacted.1.steps.foldl (fun s step => take step s) noted
  match reacted.1.fault with
  | some fault => (.error fault, after)
  | none => (.ok ⟨reacted.1.exitCode, reacted.1.output⟩, after)

end Call

namespace Step

/-- The answer to a step, and the setting after it. Within `depth` calls under way steps are taken;
deeper ones are not. -/
def perform (limit : Nat) : Nat → Step → Setting → Answer × Setting
  | 0, _, s => (.error .limitReached, s)
  | depth + 1, step, s =>
    let began := s.happen (.began step)
    let result : Answer × Setting := match step with
      | extendScript additions =>
        (.ok .nothing, { began with script := began.script.extend additions })
      | step =>
        (step.procedure limit).run (Call.respond fun step s => (perform limit depth step s).2) began
    (result.1, result.2.happen (.ended result.1))

end Step

end EditorClient
