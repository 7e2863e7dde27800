import Aegora.JsonFaults
import Aegora.Utf8

/-!
# Calling a JSON service

The chat client and the remote encoder send a request in the same way: the
payload is written in UTF-8, and what `urlopen` and `read` do is turned into
a text or into an error of the client.
-/

namespace Aegora

open Py

/-- What the interpreter makes of numbers and nesting. -/
structure ServiceEnv where
  floatRepr : String → String
  maxDepth : Nat
  intText : PyText → Option Int

/-- How a request ends. -/
inductive Transport where
  | body (bytes : List Nat)
  /-- The status, and the bytes or the exception that `exc.read()` gives. -/
  | httpError (code : Int) (detail : Except String (List Nat))
  | timeout (text : String)
  | incompleteRead (text : String)
  /-- A `URLError` or another `OSError`. -/
  | urlError (text : String)
  /-- An exception that no clause is for. -/
  | other (name : String)
deriving DecidableEq

/-- The client's own error, or the exception of another class that leaves it. -/
inductive ClientError where
  | own (message : String)
  | escaped (name : String)
deriving DecidableEq

/-- How the first `try` ends: the `except` clauses give `failed`. -/
inductive Received where
  | text (body : String)
  | failed (error : ClientError)
  | escaped (name : String)

/-- `text[:500]`. -/
def excerpt (text : List Char) : String := String.ofList (text.take 500)

def Transport.received (service : String) : Transport → Received
  | .body bytes =>
      match Utf8.decodeStrict bytes with
      | some text => .text (String.ofList text)
      | none => .escaped "UnicodeDecodeError"
  | .httpError code (.ok detail) =>
      .failed (.own (service ++ " HTTP " ++ toString code ++ ": " ++ excerpt (Utf8.decode detail)))
  | .httpError _ (.error name) => .failed (.escaped name)
  | .timeout text => .failed (.own (service ++ " request timed out: " ++ text))
  | .incompleteRead text => .failed (.own (service ++ " response incomplete: " ++ text))
  | .urlError text => .failed (.own (service ++ " request failed: " ++ text))
  | .other name => .escaped name

/-- `json.dumps(payload, ensure_ascii=False).encode("utf-8")` does not raise. -/
def encodable (texts : List PyText) : Bool := texts.all fun text => !text.any isSurrogate

end Aegora
