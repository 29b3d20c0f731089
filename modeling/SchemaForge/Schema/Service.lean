import SchemaForge.Schema.Location
import SchemaForge.Schema.Options
import SchemaForge.Text.LetterCase
set_option autoImplicit false

/-!
# Services and their rpcs

## Main definitions

* `SchemaForge.Service`, `SchemaForge.Rpc` — a service and one of its methods.
* `SchemaForge.Language` — the target languages with a naming convention.
* `SchemaForge.Rpc.nameFor` — the name of an rpc in a target language.
-/

namespace SchemaForge

open Text

/-- The target languages with a naming convention of their own. -/
inductive Language where
  | java
  | kotlin
  | php
  | csharp
  | python
  | go
  | ruby
  deriving DecidableEq, Repr, Inhabited

/-- All target languages. -/
def Language.all : List Language := [.java, .kotlin, .php, .csharp, .python, .go, .ruby]

/-- The name of a language. -/
def Language.name : Language → String
  | .java => "Java"
  | .kotlin => "Kotlin"
  | .php => "Php"
  | .csharp => "CSharp"
  | .python => "Python"
  | .go => "Go"
  | .ruby => "Ruby"

/-- What one direction of an rpc transfers. -/
structure Payload where
  isStreaming : Bool
  url : DeclUrl
  deriving DecidableEq, Repr, Inhabited

/-- One method of a service. -/
structure Rpc where
  /-- The name exactly as declared. -/
  name : String
  request : Payload
  response : Payload
  options : Options
  documentation : String
  location : Location
  deriving DecidableEq, Repr, Inhabited

/-- A service. -/
structure Service where
  name : String
  rpcs : List Rpc
  options : Options
  url : DeclUrl
  location : Location
  deriving DecidableEq, Repr, Inhabited

/-- The rpc with the given declared name. -/
def Service.rpc? (service : Service) (name : String) : Option Rpc :=
  service.rpcs.find? fun rpc => rpc.name == name

/-- Whether `c` is one of the letters `a` to `z`. -/
def isAsciiLower (c : Char) : Bool := 'a' ≤ c && c ≤ 'z'

/-- Whether `c` is one of the letters `A` to `Z`. -/
def isAsciiUpper (c : Char) : Bool := 'A' ≤ c && c ≤ 'Z'

/-- `cs` with an underscore put into each boundary of two words: a lower-case ASCII letter followed
by an upper-case one. The scan goes on after the two letters of a boundary. -/
def separateWords : List Char → List Char
  | [] => []
  | [c] => [c]
  | a :: b :: cs =>
    if isAsciiLower a && isAsciiUpper b then a :: '_' :: b :: separateWords cs
    else a :: separateWords (b :: cs)

namespace Rpc

/-- The name in snake case. -/
def snakeName (rpc : Rpc) : String := lower (String.ofList (separateWords rpc.name.toList))

/-- The name in the naming convention of `language`. -/
def nameFor (rpc : Rpc) : Language → String
  | .java | .kotlin | .python | .go => lowerFirst rpc.name
  | .php | .ruby => rpc.snakeName
  | .csharp => upperFirst rpc.name

/-- Neither side streams. -/
def isRequestResponse (rpc : Rpc) : Bool := !rpc.request.isStreaming && !rpc.response.isStreaming

/-- A single request is answered by a stream. -/
def isRequestStream (rpc : Rpc) : Bool := !rpc.request.isStreaming && rpc.response.isStreaming

/-- Both sides stream. -/
def isRequestChannel (rpc : Rpc) : Bool := rpc.request.isStreaming && rpc.response.isStreaming

/-- A request with a payload is acknowledged without one. -/
def isFireAndForget (rpc : Rpc) : Bool := rpc.request.url != .ack && rpc.response.url == .ack

/-- Neither side carries a payload. -/
def isMetadataPush (rpc : Rpc) : Bool := rpc.request.url == .ack && rpc.response.url == .ack

end Rpc

end SchemaForge
