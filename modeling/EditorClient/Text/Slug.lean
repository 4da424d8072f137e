import EditorClient.Text.Blank
import EditorClient.Text.LowerCase

/-! File and logger names made from display names: the lower-cased name with each run of other
characters than ASCII letters and digits shown as one dash, and no dash at an end. -/

namespace EditorClient

def isSlugChar (c : Char) : Bool := ('a' ≤ c && c ≤ 'z') || ('0' ≤ c && c ≤ '9')

/-- Whether the characters just before were already shown as a dash is carried along. -/
def dashRuns : Bool → List Char → List Char
  | _, [] => []
  | dashed, c :: cs =>
    if isSlugChar c then c :: dashRuns false cs
    else if dashed then dashRuns true cs
    else '-' :: dashRuns true cs

def slugChars (cs : List Char) : List Char :=
  match trim (· == '-') (dashRuns false (lowerCase cs)) with
  | [] => "default".toList
  | slug => slug

def channelSlug (name : String) : String := String.ofList (slugChars name.toList)

end EditorClient
