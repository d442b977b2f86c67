import Outline.Command
import Outline.Proofs.Json.Layout

/-!
# Files are read back from their JSON texts

A file is written as a value, the value as a text in one of two layouts, and the text is read as a
document from which the file is decoded. That the document does not depend on the layout is
`Json.read_spelled`; here the decoders are run on the documents of what the writers make.

A record is decoded member by member. Its fields are written in the order in which they are
declared, each once, so every member finds its field and finds it unset (`Json.readMembers_of`).

The only condition is that lines are numbers of 64 bits. They need not be valid as a span.

* `FunctionDecl.decode_toJson`, `ClassDecl.decode_toJson`, `SourceFile.decode_toJson`: decoding
  undoes writing, record by record.
* `Command.decode_filesJson`: so it is with the list of files that is printed.
* `files_read_back`: files and lists of files are read back from either layout.
-/
namespace Outline

open Json (Value Field decodeText decodeArray)

/-! ## Decoders on documents of values -/

namespace Json

theorem decodeString_toDoc (s : String) : decodeString (Value.string s).toDoc = .ok s := rfl

theorem decodeBool_toDoc (b : Bool) : decodeBool (Value.bool b).toDoc = .ok b := rfl

theorem decodeWord_toDoc {n : Nat} (h : n < wordBound) :
    decodeWord (Value.number n).toDoc = .ok n := by
  simp only [Value.toDoc, decodeWord, number?_ofNat h]

theorem decodeNullable_toDoc (s : Option String) :
    decodeNullable decodeString ((s.map Value.string).getD .null).toDoc = .ok s := by
  cases s <;> rfl

theorem toDocs_map {α : Type} (write : α → Value) (xs : List α) :
    Value.toDocs (xs.map write) = xs.map fun x => (write x).toDoc := by
  induction xs with
  | nil => rfl
  | cons x xs ih => rw [List.map_cons, Value.toDocs, ih, List.map_cons]

/-- Items that are each read back make a list that is read back. -/
theorem decodeArray_map {α : Type} {decode : Decoder α} {write : α → Value} {xs : List α}
    (h : ∀ x ∈ xs, decode (write x).toDoc = .ok x) :
    decodeArray decode (Value.array (xs.map write)).toDoc = .ok xs := by
  have hitems : decodeItems decode (xs.map fun x => (write x).toDoc) = .ok xs := by
    induction xs with
    | nil => rfl
    | cons x xs ih =>
      rw [List.forall_mem_cons] at h
      rw [List.map_cons, decodeItems, h.1, ih h.2]
      rfl
  rw [Value.toDoc, toDocs_map, decodeArray, hitems]
  rfl

/-- A member that finds its field, and finds it unset. -/
theorem readMembers_of {σ α : Type} {fields : List (Field σ)} {name : String} {decode : Decoder α}
    {get : σ → Option α} {set : σ → α → σ} {d : Doc} {v : α} {s : σ}
    (hfield : fields.find? (·.name == name) = some (.of name decode get set))
    (hunset : get s = none) (hd : decode d = .ok v) (ms : List (Key × Doc)) :
    readMembers fields ((.text (some name), d) :: ms) s = readMembers fields ms (set s v) := by
  rw [readMembers, hfield]
  simp only [Field.of, hunset, hd]
  rfl

/-- A text of a value, in any layout, is decoded as the document of the value. -/
theorem decodeText_spelled {α : Type} {v : Value} {cs a : List Char} (h : Spelled (.value v) cs)
    (ha : Blank a) (decode : Decoder α) :
    decodeText decode (String.ofList (cs ++ a)) = decode v.toDoc := by
  rw [decodeText, read_spelled h ha]
  cases decode v.toDoc <;> rfl

end Json

/-! ## Records -/

open Json

theorem Language.decode_tag (l : Language) : Language.decode (Value.string l.tag).toDoc = .ok l := by
  cases l <;> rfl

theorem EntityKind.decode_tag (k : EntityKind) :
    EntityKind.decode (Value.string k.tag).toDoc = .ok k := by
  cases k <;> rfl

/-- Both lines are numbers of 64 bits. -/
def Location.InWords (l : Location) : Prop := l.startLine < wordBound ∧ l.endLine < wordBound

theorem Location.decode_toJson {l : Location} (h : l.InWords) :
    Location.decode l.toJson.toDoc = .ok l := by
  rw [Location.toJson, Value.toDoc, Location.decode, decodeRecord]
  simp only [Value.toMembers]
  rw [readMembers_of rfl rfl (decodeWord_toDoc h.1), readMembers_of rfl rfl (decodeWord_toDoc h.2)]
  rfl

theorem Frame.decode_toJson (f : Frame) : Frame.decode f.toJson.toDoc = .ok f := by
  rw [Frame.toJson, Value.toDoc, Frame.decode, decodeRecord]
  simp only [Value.toMembers]
  rw [readMembers_of rfl rfl (decodeString_toDoc f.id),
    readMembers_of rfl rfl (EntityKind.decode_tag f.kind)]
  rfl

theorem FunctionDecl.decode_toJson {d : FunctionDecl} (h : d.location.InWords) :
    FunctionDecl.decode d.toJson.toDoc = .ok d := by
  rw [FunctionDecl.toJson, Value.toDoc, FunctionDecl.decode, decodeRecord]
  simp only [Value.toMembers]
  rw [readMembers_of rfl rfl (decodeString_toDoc d.id),
    readMembers_of rfl rfl (decodeString_toDoc d.name),
    readMembers_of rfl rfl (decodeNullable_toDoc d.returnType),
    readMembers_of rfl rfl (decodeBool_toDoc d.isConstructor),
    readMembers_of rfl rfl (Location.decode_toJson h),
    readMembers_of rfl rfl (Frame.decode_toJson d.parent)]
  rfl

theorem ClassDecl.decode_toJson {d : ClassDecl} (h : d.location.InWords) :
    ClassDecl.decode d.toJson.toDoc = .ok d := by
  rw [ClassDecl.toJson, Value.toDoc, ClassDecl.decode, decodeRecord]
  simp only [Value.toMembers]
  rw [readMembers_of rfl rfl (decodeString_toDoc d.id),
    readMembers_of rfl rfl (decodeString_toDoc d.name),
    readMembers_of rfl rfl (Location.decode_toJson h),
    readMembers_of rfl rfl (Frame.decode_toJson d.parent)]
  rfl

namespace SourceFile

/-- All lines are numbers of 64 bits. -/
structure InWords (f : SourceFile) : Prop where
  functions : ∀ d ∈ f.functions, d.location.InWords
  classes : ∀ d ∈ f.classes, d.location.InWords

theorem decode_toJson {f : SourceFile} (h : f.InWords) :
    SourceFile.decode f.toJson.toDoc = .ok f := by
  have hfunctions := decodeArray_map fun (d : FunctionDecl) (hd : d ∈ f.functions.toList) =>
    FunctionDecl.decode_toJson (h.functions d (Array.mem_toList_iff.mp hd))
  have hclasses := decodeArray_map fun (d : ClassDecl) (hd : d ∈ f.classes.toList) =>
    ClassDecl.decode_toJson (h.classes d (Array.mem_toList_iff.mp hd))
  rw [SourceFile.toJson, Value.toDoc, SourceFile.decode, decodeRecord]
  simp only [Value.toMembers]
  rw [readMembers_of rfl rfl (decodeString_toDoc f.id),
    readMembers_of rfl rfl (decodeString_toDoc f.path),
    readMembers_of rfl rfl (decodeString_toDoc f.name),
    readMembers_of rfl rfl (Language.decode_tag f.language),
    readMembers_of rfl rfl hfunctions, readMembers_of rfl rfl hclasses]
  rfl

end SourceFile

/-! ## Texts -/

namespace Command

/-- The files in which the sources at these paths are outlined, without those that fail. -/
def extractedFiles (s : Session) (p : Plan) (paths : List String) : List SourceFile :=
  let dump := if p.dumpNodes then NodeDump.toSink .unlimited else .disabled
  let outcomes := Extractor.extractBatch { parse := s.parse } (readAll s.files paths).1 p.language
    p.jobs dump
  outcomes.filterMap fun o => o.result.toOption.map (·.file)

theorem out_extractAll {s : Session} {p : Plan} (h : p.format = .json) (paths : List String) :
    (extractAll s p paths).out = filesJson (extractedFiles s p paths) := by
  simp [extractAll, extractedFiles, h, List.map_filterMap]

theorem decode_filesJson {files : List SourceFile} (h : ∀ f ∈ files, f.InWords) :
    decodeText (decodeArray SourceFile.decode) (filesJson files) = .ok files := by
  have hdecode := decodeArray_map fun f (hf : f ∈ files) => SourceFile.decode_toJson (h f hf)
  have hline : filesJson files = String.ofList
      ((Value.array (files.map SourceFile.toJson)).prettyChars 0 ++ ['\n']) := by
    simp [filesJson, line, Value.pretty, String.ofList_append]
  have hblank : Blank ['\n'] := by simp [Blank, isBlank]
  rw [hline, decodeText_spelled (spelled_prettyChars 0 _) hblank, hdecode]

end Command

/-- **Files are read back from their JSON texts.** Whatever strings, functions and classes a file
has, and whatever its lines are as long as they have 64 bits: reading its compact text and reading
its indented text both succeed and yield the file. A list of files is read back from the lines in
which the JSON format shows it, and these are what `extract` prints of the files it extracted. -/
theorem files_read_back :
    (∀ f : SourceFile, f.InWords →
      decodeText SourceFile.decode f.toJson.compact = .ok f ∧
      decodeText SourceFile.decode f.toJson.pretty = .ok f) ∧
    (∀ files : List SourceFile, (∀ f ∈ files, f.InWords) →
      decodeText (decodeArray SourceFile.decode) (Command.filesJson files) = .ok files) ∧
    ∀ (s : Session) (p : Command.Plan) (paths : List String), p.format = .json →
      (Command.extractAll s p paths).out =
        Command.filesJson (Command.extractedFiles s p paths) := by
  refine ⟨fun f hf => ⟨?_, ?_⟩, fun files => Command.decode_filesJson, fun s p paths h =>
    Command.out_extractAll h paths⟩
  · have h := decodeText_spelled (spelled_compactChars f.toJson) blank_nil SourceFile.decode
    rw [List.append_nil] at h
    rw [Value.compact, h, SourceFile.decode_toJson hf]
  · have h := decodeText_spelled (spelled_prettyChars 0 f.toJson) blank_nil SourceFile.decode
    rw [List.append_nil] at h
    rw [Value.pretty, h, SourceFile.decode_toJson hf]

/-- A file with marks, control characters and blanks in its strings, and spans that are not valid. -/
def SourceFile.hostile : SourceFile where
  id := ""
  path := "a\"b\\c/\x01\x08\t\n\x0c\r\x1f\x7f é€😀.py"
  name := "\\u0041\x00"
  language := .java
  functions := #[
    ⟨"f/function:1", "", some "", true, ⟨0, 0xffffffffffffffff⟩, ⟨"", .file⟩⟩,
    ⟨"f/function:2", "null", none, false, ⟨7, 3⟩, ⟨"x\"", .classLike⟩⟩]
  classes := #[⟨"]\x7d,", ":", ⟨10, 9007199254740993⟩, ⟨"\n", .function⟩⟩]

theorem files_read_back_hostile :
    SourceFile.hostile.InWords ∧
    decodeText SourceFile.decode SourceFile.hostile.toJson.compact = .ok SourceFile.hostile ∧
    decodeText SourceFile.decode SourceFile.hostile.toJson.pretty = .ok SourceFile.hostile ∧
    decodeText (decodeArray SourceFile.decode)
      (Command.filesJson [.hostile, .empty "" "" .python, .hostile]) =
        .ok [.hostile, .empty "" "" .python, .hostile] ∧
    (Command.extractAll ⟨⟨.empty, []⟩, fun _ _ => default, 1, [], .plain⟩
      ⟨["a.py"], [], none, .json, 1, false⟩ ["a.py"]).out =
        Command.filesJson (Command.extractedFiles
          ⟨⟨.empty, []⟩, fun _ _ => default, 1, [], .plain⟩
          ⟨["a.py"], [], none, .json, 1, false⟩ ["a.py"]) := by
  have hfile : SourceFile.hostile.InWords := by
    constructor <;> simp [SourceFile.hostile, Location.InWords, wordBound]
  have hempty : (SourceFile.empty "" "" .python).InWords := by
    constructor <;> simp [SourceFile.empty]
  obtain ⟨hone, hmany, hprinted⟩ := files_read_back
  exact ⟨hfile, (hone _ hfile).1, (hone _ hfile).2,
    hmany _ (by simp [hfile, hempty]), hprinted _ _ _ rfl⟩

end Outline
