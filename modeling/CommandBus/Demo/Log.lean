import CommandBus.CommandLine
import CommandBus.Demo
import CommandBus.Text.Quoted

namespace CommandBus.Demo

inductive Field
  | text (value : String)
  | number (value : Nat)
  deriving DecidableEq, Inhabited, Repr

namespace Event

def message : Event → String
  | .digesting .. => "digesting request"
  | .digested .. => "request digested"
  | .finished .. => "demo finished"

def fields : Event → List (String × Field)
  | .digesting invokerId length => [("invoker_id", .text invokerId), ("len", .number length)]
  | .digested name digest =>
    [("name", .text name), ("len", .number digest.length), ("sha256", .text digest.sha256)]
  | .finished executions cachedResponses =>
    [("executions", .number executions), ("cached_responses", .number cachedResponses)]

def json (e : Event) : List Char :=
  let fields := e.fields.map fun (name, field) =>
    (name, match field with
      | .text value => Json.writeText value
      | .number value => Json.writeNatural value)
  Json.writeObject [("level", Json.writeText "INFO"),
    ("fields", Json.writeObject (("message", Json.writeText e.message) :: fields))]

def plain (e : Event) (separator : String) : String :=
  separator.intercalate (("INFO " ++ e.message) :: e.fields.map fun (name, field) =>
    match field with
    | .text value => name ++ "=" ++ Text.quoted value
    | .number value => name ++ "=" ++ toString value)

open CommandLine in
def line (e : Event) : LogFormat → String
  | .full | .compact => e.plain " "
  | .pretty => e.plain "\n    "
  | .json => String.ofList e.json

end Event

end CommandBus.Demo
