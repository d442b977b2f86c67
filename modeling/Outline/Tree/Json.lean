import Outline.Json.Decode
import Outline.Tree.Preorder

/-!
# Trees as JSON

A tree is written as the array of its nodes in preorder. A node is an array of its kind, the number
of its children, the field that it sits under or null, a sum of marks, its first byte and the one
after its last, and the row and column of its start and of its end. The marks are one for a named
node, two for an error, four for a missing node and eight for an error inside.
-/
namespace Outline

open Json (Decoder Fault)

def Row.decode : Decoder Row
  | .array [kind, childCount, field, marks, startByte, endByte, startRow, startColumn, stopRow,
      stopColumn] true => do
    let kind ← Json.decodeString kind
    let childCount ← Json.decodeWord childCount
    let field ← Json.decodeNullable Json.decodeString field
    let marks ← Json.decodeWord marks
    return {
      childCount
      node := {
        kind
        field
        named := marks.testBit 0
        isError := marks.testBit 1
        isMissing := marks.testBit 2
        hasError := marks.testBit 3
        startByte := ← Json.decodeWord startByte
        endByte := ← Json.decodeWord endByte
        start := ⟨← Json.decodeWord startRow, ← Json.decodeWord startColumn⟩
        stop := ⟨← Json.decodeWord stopRow, ← Json.decodeWord stopColumn⟩
        children := [] } }
  | d => Json.expected "an array of ten items" d

/-- The tree that a text describes. -/
def Node.ofJson? (text : String) : Option Node :=
  (Json.decodeText (Json.decodeArray Row.decode) text).toOption.bind Node.ofRows?

end Outline
