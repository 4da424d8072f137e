import EditorClient.LogRecord
import EditorClient.Notice

/-! What the client writes to a log for somebody else: the course of a session and the words of its
server, for the session's channel, and notices that a log shows instead of a user interface. -/

namespace EditorClient

inductive Posting where
  | sessionStarted (slug : String) (name : Value)
  | sessionStopped (slug : String) (name : Value)
  | serverExited (slug : String) (process code : Option Int)
  | serverError (slug : String) (source : String) (fault : Fault)
  | message (slug : String) (level : Int) (text : String)
  | notice (logger : String) (notice : Notice)
deriving Repr

namespace Posting

def optionalNumber : Option Int → String
  | some n => toString n
  | none => "None"

def record : Posting → LogRecord
  | sessionStarted slug name =>
    ⟨Logger.channel slug, Level.info, "Session " ++ name.literal ++ " started", none⟩
  | sessionStopped slug name =>
    ⟨Logger.channel slug, Level.info, "Session " ++ name.literal ++ " stopped", none⟩
  | serverExited slug process code =>
    ⟨Logger.channel slug, Level.info,
      "Server process " ++ optionalNumber process ++ " exited with code " ++ optionalNumber code, none⟩
  | serverError slug source fault =>
    ⟨Logger.channel slug, Level.error,
      "Language server error (" ++ source ++ "): " ++ fault.message, none⟩
  | message slug level text => ⟨Logger.channel slug, level, text, none⟩
  | notice logger n => ⟨logger, n.severity.level, n.text, none⟩

end Posting

end EditorClient
