import Mathlib.Data.List.Forall2
import Synopsis.Proofs.Report.Console
import Synopsis.Summary

/-!
# What a prompt tells of a file

A prompt about a file tells some of what is recorded of it and the first hundred lines of its text.
Files that agree on all that is told cannot be told apart by whoever is asked: the prompt is the
same, and so are the request, the answer and all that happens in the session. What is cut off leaves
no trace but the counts in the headings. The first lines are told in full, so that files which agree
on the rest have the same prompt only if they agree on these lines. Whether other parts can be read
back from a prompt is not spoken of.
-/

namespace Synopsis

/-! ## Records that look the same in a prompt -/

/-- Functions with the same signature. -/
structure FunctionRecord.SameSignature (f g : FunctionRecord) : Prop where
  name : f.name = g.name
  params : f.params = g.params
  isAsync : f.isAsync = g.isAsync
  exported : f.exported = g.exported
  isArrow : f.isArrow = g.isArrow

/-- Classes of one name that extend the same one, with the same names of the first five methods. -/
structure ClassRecord.SameOutline (c d : ClassRecord) : Prop where
  name : c.name = d.name
  superclass : c.superclass = d.superclass
  methods : (c.methods.take 5).map MethodRecord.name = (d.methods.take 5).map MethodRecord.name

/-- Exports of one kind and name. -/
structure ExportRecord.SameExport (e other : ExportRecord) : Prop where
  kind : e.kind.label = other.kind.label
  name : e.name = other.name

/-- Records that agree on all that a prompt tells of them, up to its limits. -/
structure FileRecord.SameInPrompt (record other : FileRecord) : Prop where
  name : record.name = other.name
  path : record.path = other.path
  lines : record.lines = other.lines
  size : record.size = other.size
  importCount : record.facts.imports.length = other.facts.imports.length
  sources : (record.facts.imports.take 10).map ImportRecord.source =
    (other.facts.imports.take 10).map ImportRecord.source
  exports : List.Forall₂ ExportRecord.SameExport record.facts.exports other.facts.exports
  functionCount : record.facts.functions.length = other.facts.functions.length
  functions : List.Forall₂ FunctionRecord.SameSignature (record.facts.functions.take 15)
    (other.facts.functions.take 15)
  classes : List.Forall₂ ClassRecord.SameOutline record.facts.classes other.facts.classes

theorem map_eq_of_forall₂ {α β : Type} {R : α → α → Prop} {f : α → β} {items others : List α}
    (each : List.Forall₂ R items others) (same : ∀ a b, R a b → f a = f b) :
    items.map f = others.map f := by
  induction each with
  | nil => rfl
  | cons related _ ih => rw [List.map_cons, List.map_cons, same _ _ related, ih]

theorem FunctionRecord.SameSignature.signature_eq {f g : FunctionRecord}
    (same : f.SameSignature g) :
    f.signature = g.signature := by
  rw [signature, signature, call, call, allMarks, allMarks, marks, marks, same.name, same.params,
    same.isAsync, same.exported, same.isArrow]

theorem ClassRecord.SameOutline.signature_eq {c d : ClassRecord} (same : c.SameOutline d) :
    c.signature = d.signature := by
  rw [signature, signature, same.name, same.superclass]

namespace Prompt

open Text

theorem classLines_eq {c d : ClassRecord} (same : c.SameOutline d) :
    classLines c = classLines d := by
  have methods (e : ClassRecord) : ((e.methods.take 5).map fun m => "  - " ++ m.name ++ "()") =
      ((e.methods.take 5).map MethodRecord.name).map fun name => "  - " ++ name ++ "()" := by
    rw [List.map_map]
    rfl
  rw [classLines, classLines, methods, methods, same.methods, same.signature_eq]

variable {record other : FileRecord} {content content' : String}

theorem ofFacts_eq (same : record.SameInPrompt other) :
    ofFacts record.facts = ofFacts other.facts := by
  have imports (facts : Facts) : ((facts.imports.take 10).map fun i => "- " ++ i.source) =
      ((facts.imports.take 10).map ImportRecord.source).map ("- " ++ ·) := List.map_map.symm
  have exports : (record.facts.exports.map fun e => "- " ++ e.kind.label ++ ": " ++ e.name) =
      other.facts.exports.map fun e => "- " ++ e.kind.label ++ ": " ++ e.name :=
    map_eq_of_forall₂ same.exports fun e e' alike => by rw [alike.kind, alike.name]
  have functions : ((record.facts.functions.take 15).map fun f => "- " ++ f.signature) =
      (other.facts.functions.take 15).map fun f => "- " ++ f.signature :=
    map_eq_of_forall₂ same.functions fun f g alike => by rw [alike.signature_eq]
  have classes :
      record.facts.classes.flatMap classLines = other.facts.classes.flatMap classLines := by
    rw [List.flatMap_def, List.flatMap_def,
      map_eq_of_forall₂ same.classes fun _ _ alike => classLines_eq alike]
  rw [ofFacts, ofFacts, imports, imports, same.sources, exports, functions, classes,
    same.importCount, same.exports.length_eq, same.functionCount, same.classes.length_eq]

/-! ## The first lines -/

/-- The lines of a text that are told. -/
def firstLines (content : String) : List String := (newlinePieces content).take previewLines

theorem newlinePieces_preview (content : String) :
    newlinePieces (preview content) = firstLines content := by
  have nonempty : firstLines content ≠ [] := by
    rw [firstLines, Ne, List.take_eq_nil_iff, not_or]
    exact ⟨by decide, by simp [newlinePieces, splitOn_ne_nil]⟩
  have own : ∀ line ∈ firstLines content, newlinePieces line = [line] := by
    intro line inside
    obtain ⟨chars, piece, rfl⟩ := List.mem_map.mp (List.mem_of_mem_take inside)
    refine newlinePieces_of_notMem ?_
    rw [String.toList_ofList]
    exact (mem_of_mem_splitOn piece).2
  rw [preview, ← firstLines, newlinePieces_join nonempty, List.flatMap_congr own,
    List.flatMap_singleton']

/-- The lines told can be read back from the preview. -/
theorem preview_eq_iff : preview content = preview content' ↔
    firstLines content = firstLines content' := by
  constructor
  · intro same
    rw [← newlinePieces_preview, same, newlinePieces_preview]
  · intro same
    rw [preview, preview, ← firstLines, same]
    rfl

theorem ofFile_eq (same : record.SameInPrompt other)
    (lines : firstLines content = firstLines content') :
    ofFile record content = ofFile other content' := by
  rw [ofFile, ofFile, same.name, same.path, same.lines, same.size, ofFacts_eq same,
    preview_eq_iff.mpr lines]

/-- What a prompt begins with does not depend on the text of the file. -/
theorem exists_ofFile {size : String} (sized : sizeText record.size = .ok size) :
    ∃ front, ∀ content, ofFile record content =
      .ok (front ++ ("\n## Code Preview\n```\n" ++ preview content ++ "\n```")) := by
  have joined (parts : List String) (last : String) (nonempty : parts ≠ []) :
      join "\n" (parts ++ [last]) = join "\n" parts ++ "\n" ++ last := by
    rw [join, String.intercalate_append_of_ne_nil nonempty (List.cons_ne_nil _ _),
      String.intercalate_singleton]
    rfl
  refine ⟨join "\n" (["# File: " ++ record.name, "- Path: " ++ record.path,
    s!"- Lines: {record.lines}", "- Size: " ++ size] ++ ofFacts record.facts) ++ "\n",
    fun content => ?_⟩
  rw [ofFile, sized]
  exact congrArg Except.ok (joined _ _ (by simp))

theorem firstLines_eq_of_ofFile_eq {size : String} (sized : sizeText record.size = .ok size)
    (same : ofFile record content = ofFile record content') :
    firstLines content = firstLines content' := by
  obtain ⟨front, made⟩ := exists_ofFile sized
  rw [made, made] at same
  have ends := (String.append_right_inj front).mp (Except.ok.inj same)
  rw [String.append_left_inj, String.append_right_inj] at ends
  exact preview_eq_iff.mp ends

/-! ## Asking -/

/-- Whatever two files are, of which all agrees that a prompt tells: if their first lines
agree, they have the same prompt, and asking about them, under any kind, ends in the same way,
with the same questions, requests and notices. If a prompt can be made, they have the same one
only if their first lines agree. -/
theorem file_prompted_alike (same : record.SameInPrompt other) :
    (firstLines content = firstLines content' →
      ofFile record content = ofFile other content' ∧
        ∀ runner kind session,
          (Summary.ofKind runner kind (.file record content)).run.run session =
            (Summary.ofKind runner kind (.file other content')).run.run session) ∧
    ((∃ size, sizeText record.size = .ok size) → ofFile record content = ofFile other content' →
      firstLines content = firstLines content') := by
  refine ⟨fun lines => ?_, ?_⟩
  · have prompt := ofFile_eq same lines
    have asked :
        (Subject.file record content).question = (Subject.file other content').question := by
      rw [Subject.question, Subject.question, prompt]
    have question (kind : String) : Summary.questionAs kind (.file record content) =
        Summary.questionAs kind (.file other content') := by
      rw [Summary.questionAs, Summary.questionAs, asked]
      rfl
    refine ⟨prompt, fun runner kind session => ?_⟩
    rw [Summary.ofKind, Summary.ofKind, question]
  · rintro ⟨size, sized⟩ prompt
    rw [← ofFile_eq same rfl] at prompt
    exact firstLines_eq_of_ofFile_eq sized prompt

/-- A file with one import, one function and one method more than are told, which have the name
`rest`, and with this name also wherever nothing is told. -/
def fileBeyond (rest : String) : FileRecord where
  path := "/p/a.js"
  name := "a.js"
  extension := ".js"
  lines := 101
  size := 2048
  facts :=
    { imports := List.replicate 10 { source := "m", line := 1 } ++ [{ source := rest, line := 2 }]
      exports := [{ kind := .default, name := "f", line := 3 }]
      functions := List.replicate 15 { name := "f", params := ["x"], line := 3, isAsync := true } ++
        [{ name := rest, params := [], line := 4 }]
      classes := [{ name := "C", line := 5, superclass := some "B", methods :=
        List.replicate 5 { name := "m", kind := .method } ++ [{ name := rest, kind := .getter }] }]
      «variables» := [{ name := rest, line := 6 }]
      comments := [{ kind := .line, text := rest, start := 0, stop := 9 }] }
  tree := some rest

/-- A text whose line after the hundredth is `rest`. -/
def textBeyond (rest : String) : String := String.ofList (List.replicate 100 '\n') ++ rest

theorem sameInPrompt_fileBeyond (rest rest' : String) :
    (fileBeyond rest).SameInPrompt (fileBeyond rest') where
  name := rfl
  path := rfl
  lines := rfl
  size := rfl
  importCount := rfl
  sources := rfl
  exports := .cons ⟨rfl, rfl⟩ .nil
  functionCount := rfl
  functions := List.forall₂_same.mpr fun _ _ => ⟨rfl, rfl, rfl, rfl, rfl⟩
  classes := .cons ⟨rfl, rfl, rfl⟩ .nil

/-- What stands beyond the limits, and what is never told, is not told; a line within them is. -/
theorem file_prompted_alike_beyond :
    (fileBeyond "key").SameInPrompt (fileBeyond "") ∧
      firstLines (textBeyond "key") = firstLines (textBeyond "") ∧
      ofFile (fileBeyond "key") (textBeyond "key") = ofFile (fileBeyond "") (textBeyond "") ∧
      ofFile (fileBeyond "key") (textBeyond "key") ≠ ofFile (fileBeyond "") "key" := by
  have same := sameInPrompt_fileBeyond "key" ""
  have lines : firstLines (textBeyond "key") = firstLines (textBeyond "") := by decide +kernel
  have apart : firstLines (textBeyond "key") ≠ firstLines "key" := by decide +kernel
  have sized : ∃ size, sizeText (fileBeyond "key").size = .ok size := ⟨"2 KB", by decide +kernel⟩
  exact ⟨same, lines, ((file_prompted_alike same).1 lines).1,
    fun prompt => apart ((file_prompted_alike same).2 sized prompt)⟩

end Prompt

end Synopsis
