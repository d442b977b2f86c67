import Outline.Json.Decode
import Outline.Json.Value
import Outline.SourceFile

/-!
# Files as JSON
-/
namespace Outline

open Json (Value Field Fault require)

/-! ## Writing -/

def Location.toJson (l : Location) : Value :=
  .object [("start_line", .number l.startLine), ("end_line", .number l.endLine)]

def Frame.toJson (f : Frame) : Value :=
  .object [("id", .string f.id), ("kind", .string f.kind.tag)]

def FunctionDecl.toJson (f : FunctionDecl) : Value :=
  .object [
    ("id", .string f.id),
    ("name", .string f.name),
    ("return_type", (f.returnType.map .string).getD .null),
    ("is_constructor", .bool f.isConstructor),
    ("location", f.location.toJson),
    ("parent", f.parent.toJson)]

def ClassDecl.toJson (c : ClassDecl) : Value :=
  .object [
    ("id", .string c.id),
    ("name", .string c.name),
    ("location", c.location.toJson),
    ("parent", c.parent.toJson)]

def SourceFile.toJson (f : SourceFile) : Value :=
  .object [
    ("id", .string f.id),
    ("path", .string f.path),
    ("name", .string f.name),
    ("language", .string f.language.tag),
    ("functions", .array (f.functions.toList.map FunctionDecl.toJson)),
    ("classes", .array (f.classes.toList.map ClassDecl.toJson))]

/-! ## Reading -/

def Language.decode : Json.Decoder Language :=
  Json.decodeVariant (Language.all.map Language.tag) fun s => Language.all.find? (·.tag == s)

def EntityKind.decode : Json.Decoder EntityKind :=
  Json.decodeVariant (EntityKind.all.map EntityKind.tag) EntityKind.ofTag?

/-- A location that is being read. No check is made that it is valid. -/
structure Location.Partial where
  startLine : Option Nat := none
  endLine : Option Nat := none

def Location.decode : Json.Decoder Location :=
  Json.decodeRecord "Location"
    [ .of "start_line" Json.decodeWord (·.startLine) fun s v => { s with startLine := some v },
      .of "end_line" Json.decodeWord (·.endLine) fun s v => { s with endLine := some v } ]
    ({} : Location.Partial) fun s => do
    return {
      startLine := ← require "start_line" s.startLine
      endLine := ← require "end_line" s.endLine }

structure Frame.Partial where
  id : Option EntityId := none
  kind : Option EntityKind := none

def Frame.decode : Json.Decoder Frame :=
  Json.decodeRecord "Parent"
    [ .of "id" Json.decodeString (·.id) fun s v => { s with id := some v },
      .of "kind" EntityKind.decode (·.kind) fun s v => { s with kind := some v } ]
    ({} : Frame.Partial) fun s => do
    return { id := ← require "id" s.id, kind := ← require "kind" s.kind }

structure FunctionDecl.Partial where
  id : Option EntityId := none
  name : Option String := none
  returnType : Option (Option String) := none
  isConstructor : Option Bool := none
  location : Option Location := none
  parent : Option Frame := none

/-- A function without a return type is one whose return type is null. -/
def FunctionDecl.decode : Json.Decoder FunctionDecl :=
  Json.decodeRecord "Function"
    [ .of "id" Json.decodeString (·.id) fun s v => { s with id := some v },
      .of "name" Json.decodeString (·.name) fun s v => { s with name := some v },
      .of "return_type" (Json.decodeNullable Json.decodeString) (·.returnType)
        fun s v => { s with returnType := some v },
      .of "is_constructor" Json.decodeBool (·.isConstructor)
        fun s v => { s with isConstructor := some v },
      .of "location" Location.decode (·.location) fun s v => { s with location := some v },
      .of "parent" Frame.decode (·.parent) fun s v => { s with parent := some v } ]
    ({} : FunctionDecl.Partial) fun s => do
    return {
      id := ← require "id" s.id
      name := ← require "name" s.name
      returnType := s.returnType.getD none
      isConstructor := ← require "is_constructor" s.isConstructor
      location := ← require "location" s.location
      parent := ← require "parent" s.parent }

structure ClassDecl.Partial where
  id : Option EntityId := none
  name : Option String := none
  location : Option Location := none
  parent : Option Frame := none

def ClassDecl.decode : Json.Decoder ClassDecl :=
  Json.decodeRecord "Class"
    [ .of "id" Json.decodeString (·.id) fun s v => { s with id := some v },
      .of "name" Json.decodeString (·.name) fun s v => { s with name := some v },
      .of "location" Location.decode (·.location) fun s v => { s with location := some v },
      .of "parent" Frame.decode (·.parent) fun s v => { s with parent := some v } ]
    ({} : ClassDecl.Partial) fun s => do
    return {
      id := ← require "id" s.id
      name := ← require "name" s.name
      location := ← require "location" s.location
      parent := ← require "parent" s.parent }

structure SourceFile.Partial where
  id : Option EntityId := none
  path : Option String := none
  name : Option String := none
  language : Option Language := none
  functions : Option (List FunctionDecl) := none
  classes : Option (List ClassDecl) := none

def SourceFile.decode : Json.Decoder SourceFile :=
  Json.decodeRecord "File"
    [ .of "id" Json.decodeString (·.id) fun s v => { s with id := some v },
      .of "path" Json.decodeString (·.path) fun s v => { s with path := some v },
      .of "name" Json.decodeString (·.name) fun s v => { s with name := some v },
      .of "language" Language.decode (·.language) fun s v => { s with language := some v },
      .of "functions" (Json.decodeArray FunctionDecl.decode) (·.functions)
        fun s v => { s with functions := some v },
      .of "classes" (Json.decodeArray ClassDecl.decode) (·.classes)
        fun s v => { s with classes := some v } ]
    ({} : SourceFile.Partial) fun s => do
    return {
      id := ← require "id" s.id
      path := ← require "path" s.path
      name := ← require "name" s.name
      language := ← require "language" s.language
      functions := (← require "functions" s.functions).toArray
      classes := (← require "classes" s.classes).toArray }

end Outline
