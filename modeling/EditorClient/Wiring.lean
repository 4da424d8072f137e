/-! The fixed names, numbers and places that the client is wired with. -/

namespace EditorClient

def clientName : String := "mfdls-client"

def clientVersion : String := "0.1.0"

def logVendor : String := "medford"

def serverModule : String := "mfdls"

def dependencyModule : String := "pygls"

def loopbackHost : String := "127.0.0.1"

def developmentPort : Int := 2087

def languageId : String := "medford"

/-- Where the server package lies, seen from the client's install location. -/
def serverDirectoryNames : List (List Char) := ["..".toList, "medford-language-server".toList]

end EditorClient
