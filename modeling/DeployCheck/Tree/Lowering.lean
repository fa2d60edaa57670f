import DeployCheck.Program.Read
import DeployCheck.Tree.Builder

/-!
# From documents to trees

Every document becomes a node behind the nodes of its parts, so children come
before their parents and the program comes last. A string must not have both a
value and parts.
-/

set_option autoImplicit false

namespace DeployCheck

/-- A string with both a value and parts, by its span. -/
structure AmbiguousString where
  span : Option Span
  deriving DecidableEq

def AmbiguousString.message (e : AmbiguousString) : String :=
  let place := match e.span with
    | none => "None"
    | some s =>
      "Some(Span \x7b start: " ++ toString s.start ++ ", end: " ++ toString s.stop ++ " \x7d)"
  "string literal at " ++ place ++ " has both `value` and `parts`"

abbrev Lowering := ExceptT AmbiguousString Build

namespace Lowering

def build {α : Type} (step : Build α) : Lowering α := ExceptT.lift step

def withSpan (id : NodeId) : Option Span → Lowering NodeId
  | none => return id
  | some span => do
    build (Build.setSpan id span)
    return id

end Lowering

open Lowering

/-- The texts between the holes of a string, one more than there are holes. -/
def Part.segments : List Part → List String
  | [] => [""]
  | .hole _ :: rest => "" :: segments rest
  | .text piece :: rest => match segments rest with
    | [] => [piece]
    | first :: others => (piece ++ first) :: others

mutual

def Expression.lower : Expression → Lowering NodeId
  | .string value parts span => do
    match value, parts with
    | value, [] => withSpan (← build (Build.string (value.getD ""))) span
    | some _, _ :: _ => throw ⟨span⟩
    | none, part :: parts => do
      let holes ← Part.lowerHoles (part :: parts)
      withSpan (← build (Build.interpolated (Part.segments (part :: parts)) holes)) span
  | .int value span => do
    withSpan (← build (Build.int value)) span
  | .bool value span => do
    withSpan (← build (Build.bool value)) span
  | .null span => do
    withSpan (← build Build.null) span
  | .ident name span => do
    withSpan (← build (Build.ident name)) span
  | .array items span => do
    let items ← Expression.lowerAll items
    withSpan (← build (Build.array items)) span
  | .object properties span => do
    let properties ← Expression.lowerProperties properties
    withSpan (← build (Build.object properties)) span
  | .property base name span => do
    let base ← base.lower
    withSpan (← build (Build.property base name)) span
  | .index base index span => do
    let base ← base.lower
    let index ← index.lower
    withSpan (← build (Build.index base index)) span
  | .resourceAccess base name span => do
    let base ← base.lower
    withSpan (← build (Build.resourceAccess base name)) span
  | .call name args span => do
    let args ← Expression.lowerAll args
    withSpan (← build (Build.call name args)) span
  | .instanceCall base name args span => do
    let base ← base.lower
    let args ← Expression.lowerAll args
    withSpan (← build (Build.instanceCall base name args)) span
  | .paren inner span => do
    let inner ← inner.lower
    withSpan (← build (Build.paren inner)) span
  | .unary operator operand span => do
    let operand ← operand.lower
    withSpan (← build (Build.unary operator operand)) span
  | .binary operator left right span => do
    let left ← left.lower
    let right ← right.lower
    withSpan (← build (Build.binary operator left right)) span
  | .ternary condition whenTrue whenFalse span => do
    let condition ← condition.lower
    let whenTrue ← whenTrue.lower
    let whenFalse ← whenFalse.lower
    withSpan (← build (Build.ternary condition whenTrue whenFalse)) span
  | .loop item index iterated body span => do
    let iterated ← iterated.lower
    let body ← body.lower
    withSpan (← build (Build.loop item index iterated body)) span
  | .condition condition body span => do
    let condition ← condition.lower
    let body ← body.lower
    withSpan (← build (Build.condition condition body)) span

def Expression.lowerAll : List Expression → Lowering (List NodeId)
  | [] => return []
  | e :: rest => do
    let id ← e.lower
    return id :: (← Expression.lowerAll rest)

def Expression.lowerProperties : List (String × Expression) → Lowering (List (String × NodeId))
  | [] => return []
  | (key, e) :: rest => do
    let id ← e.lower
    return (key, id) :: (← Expression.lowerProperties rest)

def Part.lowerHoles : List Part → Lowering (List NodeId)
  | [] => return []
  | .text _ :: rest => Part.lowerHoles rest
  | .hole e :: rest => do
    let id ← e.lower
    return id :: (← Part.lowerHoles rest)

end

mutual

def Declaration.lower : Declaration → Lowering NodeId
  | .param name default span => do
    let default ← match default with
      | none => pure none
      | some e => some <$> e.lower
    withSpan (← build (Build.param name default)) span
  | .var name value span => do
    let value ← value.lower
    withSpan (← build (Build.var name value)) span
  | .resource name type existing body resources span => do
    let body ← body.lower
    let nested ← Declaration.lowerAll resources
    withSpan (← build (Build.resource name type existing body nested)) span
  | .module name path body outputs span => do
    let body ← body.lower
    let outputs := outputs.map fun o => (o.name, o.resource)
    withSpan (← build (Build.module name path body outputs)) span
  | .output name value span => do
    let value ← value.lower
    withSpan (← build (Build.output name value)) span

def Declaration.lowerAll : List Declaration → Lowering (List NodeId)
  | [] => return []
  | d :: rest => do
    let id ← d.lower
    return id :: (← Declaration.lowerAll rest)

end

def Tree.ofProgram (file : String) (program : List Declaration) : Except AmbiguousString Tree :=
  match (Declaration.lowerAll program).run.run Build.start with
  | (.ok declarations, b) => .ok (Build.finish file declarations b)
  | (.error e, _) => .error e

inductive DocumentError where
  | json (error : Json.ReadError)
  | ambiguous (string : AmbiguousString)
  deriving DecidableEq

def DocumentError.message : DocumentError → String
  | .json e => "invalid program document: " ++ e.summary
  | .ambiguous e => e.message

def Tree.ofText (file text : String) : Except DocumentError Tree := do
  let program ← (Program.ofText text).mapError .json
  (Tree.ofProgram file program).mapError .ambiguous

end DeployCheck
