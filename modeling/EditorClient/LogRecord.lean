import EditorClient.Fault

/-! Records of a log. Loggers have dotted names, and a record reaches the loggers above its own
too. What the client's own parts log reaches the root logger, and no channel. -/

namespace EditorClient

namespace Logger

def root : String := "mfdls_client"

def host : String := "mfdls_client.host"

def extension : String := "mfdls_client.extension"

def transport : String := "mfdls_client._core.transport"

def preflight : String := "mfdls_client._core.preflight"

def output : String := "mfdls_client._core.output"

def session : String := "mfdls_client._core.session"

def lifecycle : String := "mfdls_client._core.lifecycle"

/-- The loggers of the client's own parts. -/
def own : List String := [host, extension, transport, preflight, output, session, lifecycle]

def channelStart : String := "mfdls_client.output."

def channel (slug : String) : String := channelStart ++ slug

/-- The names above one, nearest first, all read backwards. Each ends before a dot; of dots in a row
only every other one counts. -/
def above : List Char → List (List Char)
  | '.' :: c :: rest => (c :: rest) :: above rest
  | _ :: rest => above rest
  | [] => []

/-- A logger and those above it, nearest first. -/
def upwards (name : String) : List String :=
  name :: (above name.toList.reverse).map fun cs => String.ofList cs.reverse

/-- Whether records of the second logger reach the first. -/
def reaches (upper name : String) : Bool :=
  upper == name || (above name.toList.reverse).contains upper.toList.reverse

theorem suffix_of_mem_above {x cs : List Char} (h : x ∈ above cs) : x <:+ cs := by
  fun_induction above cs with
  | case1 c rest ih =>
    rcases List.mem_cons.1 h with rfl | h
    · exact List.suffix_cons _ _
    · exact (ih h).trans ⟨['.', c], rfl⟩
  | case2 c rest _ ih => exact (ih h).trans (List.suffix_cons _ _)
  | case3 => simp at h

theorem startsWith_of_reaches {upper name : String} (h : reaches upper name = true) :
    upper.toList <+: name.toList := by
  rcases Bool.or_eq_true_iff.1 h with h | h
  · exact beq_iff_eq.1 h ▸ List.prefix_rfl
  · exact List.reverse_suffix.1 (suffix_of_mem_above (List.contains_iff_mem.1 h))

theorem reaches_root_of_own : ∀ name ∈ own, reaches root name = true := by decide +kernel

theorem not_reaches_channel_of_own {name : String} (h : name ∈ own) (slug : String) :
    reaches (channel slug) name = false := by
  rw [← Bool.not_eq_true]
  intro hr
  have hs := startsWith_of_reaches hr
  rw [channel, String.toList_append] at hs
  have hn : ∀ name ∈ own, ¬ channelStart.toList <+: name.toList := by decide +kernel
  exact hn name h ((List.prefix_append _ _).trans hs)

end Logger

namespace Level

/-- A logger that has this level has none of its own. -/
def unset : Int := 0

def debug : Int := 10

def info : Int := 20

def warning : Int := 30

def error : Int := 40

def name (level : Int) : String :=
  if level = 10 then "DEBUG"
  else if level = 20 then "INFO"
  else if level = 30 then "WARNING"
  else if level = 40 then "ERROR"
  else if level = 50 then "CRITICAL"
  else "Level " ++ toString level

end Level

/-- A log record; the fault is the one whose course is written with it. -/
structure LogRecord where
  logger : String
  level : Int
  text : String
  fault : Option Fault
deriving Repr

namespace LogRecord

/-- The line of a log file; the time of writing is left open. -/
def line (r : LogRecord) : String := "<time> [" ++ Level.name r.level ++ "] " ++ r.text ++ "\n"

end LogRecord

end EditorClient
