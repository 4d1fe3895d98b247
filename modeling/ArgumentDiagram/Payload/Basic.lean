import ArgumentDiagram.Json.Record
import ArgumentDiagram.Json.Relaxed
import ArgumentDiagram.Json.Strict
import ArgumentDiagram.Payload.Id

/-!
Payloads: claims and relations under names of their own, and the documents that hold them.
-/

namespace ArgumentDiagram

structure ClaimEntry where
  id : PayloadId
  text : String
  assumption : Bool
  scope : Option String
deriving DecidableEq

/-- A name together with the class of thing it stands for. -/
structure Reference where
  cls : String
  id : PayloadId
deriving DecidableEq

structure RelationEntry where
  id : PayloadId
  sources : List Reference
  target : Reference
  kind : Option String
  assumption : Bool
deriving DecidableEq

structure Payload where
  claims : List ClaimEntry
  relations : List RelationEntry
deriving DecidableEq

open Json

namespace PayloadId

/-- Numbers must be whole and fit 64-bit words. -/
def ofNode? : Node → Option PayloadId
  | .int n => if fitsWord n then some (.number n) else none
  | .text s => some (.text s)
  | _ => none

end PayloadId

namespace ClaimEntry

def ofNode? (node : Node) : Option ClaimEntry := do
  let r ← node.record? ["id", "text", "assumption", "scope"] 2
  pure {
    id := ← r.required "id" PayloadId.ofNode?
    text := ← r.required "text" Node.asText?
    assumption := ← r.withDefault "assumption" false Node.asBool?
    scope := ← r.optional "scope" Node.asText? }

end ClaimEntry

namespace Reference

def ofNode? (node : Node) : Option Reference := do
  let r ← node.record? ["cls", "id"] 2
  pure { cls := ← r.required "cls" Node.asText?, id := ← r.required "id" PayloadId.ofNode? }

end Reference

namespace RelationEntry

def ofNode? (node : Node) : Option RelationEntry := do
  let r ← node.record? ["id", "sources", "target", "type", "assumption"] 3
  pure {
    id := ← r.required "id" PayloadId.ofNode?
    sources := ← r.required "sources" (Node.asList? Reference.ofNode?)
    target := ← r.required "target" Reference.ofNode?
    kind := ← r.optional "type" Node.asText?
    assumption := ← r.withDefault "assumption" false Node.asBool? }

end RelationEntry

namespace Payload

def ofNode? (node : Node) : Option Payload := do
  let r ← node.record? ["claims", "relations"] 0
  pure {
    claims := ← r.withDefault "claims" [] (Node.asList? ClaimEntry.ofNode?)
    relations := ← r.withDefault "relations" [] (Node.asList? RelationEntry.ofNode?) }

/-- The payload in the only `data` member of an object. -/
def wrapped? : Node → Option Payload
  | .object members =>
    match Node.named "data" members with
    | [data] => ofNode? data
    | _ => none
  | _ => none

/-- The payload of a document: a wrapped one, or else the document itself. -/
def ofDocument? (node : Node) : Option Payload :=
  match wrapped? node with
  | some payload => some payload
  | none => ofNode? node

/-- The payload of a document in the strict dialect, all of which must be readable. -/
def ofStrict? (text : String) : Option Payload := do
  let node ← Strict.dialect.document text
  if node.value?.isNone || Strict.mostDepth < node.depth then none
  ofDocument? node

/-- The payload of a document in the relaxed dialect, all of which must be readable. -/
def ofRelaxed? (text : String) : Option Payload := do
  let node ← Relaxed.dialect.document text
  if node.value?.isNone then none
  ofDocument? node

/-- Reads strictly if that gives a payload, and else by the relaxed rules. -/
def ofText? (text : String) : Option Payload :=
  match ofStrict? text with
  | some payload => some payload
  | none => ofRelaxed? text

end Payload

end ArgumentDiagram
