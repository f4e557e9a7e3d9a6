/-
Which texts the paths of a folder lead to. A path is steps that stay in the folder, each with
its slash, and then the name of a file; it does not start at the root. The first file of this
name is the one that is read, and its bytes are a text when they encode one in UTF-8.
-/

import LedgerLexer.Folder

namespace LedgerLexer

/-- The path asks for the file of this name in the folder it starts from. -/
structure LeadsTo (path name : Text) : Prop where
  steps : ∃ steps : List Text, path = steps.flatMap (· ++ ['/']) ++ name ∧
    ∀ step ∈ steps, step = [] ∨ step = ['.']
  relative : path.head? ≠ some '/'
  isName : name ≠ [] ∧ name ≠ ['.'] ∧ '/' ∉ name

private theorem isStepInPlace_iff (part : Text) :
    isStepInPlace part = true ↔ part = [] ∨ part = ['.'] := by
  simp [isStepInPlace]

private theorem all_isStepInPlace_iff (steps : List Text) :
    steps.all isStepInPlace = true ↔ ∀ step ∈ steps, step = [] ∨ step = ['.'] := by
  simp only [List.all_eq_true, isStepInPlace_iff]

private theorem isStepInPlace_eq_false_iff (name : Text) :
    isStepInPlace name = false ↔ name ≠ [] ∧ name ≠ ['.'] := by
  rw [← Bool.not_eq_true, isStepInPlace_iff, not_or]

private theorem splitOn_path (steps : List Text) (name : Text)
    (inPlace : ∀ step ∈ steps, step = [] ∨ step = ['.']) (plain : '/' ∉ name) :
    (steps.flatMap (· ++ ['/']) ++ name).splitOn '/' = steps ++ [name] := by
  have absent : ∀ step ∈ steps, '/' ∉ step := by
    intro step member
    rcases inPlace step member with rfl | rfl <;> decide
  rw [splitOn_flatMap_append '/' steps name absent, List.splitOn_eq_singleton plain]

theorem fileName?_eq_some_iff (path name : Text) :
    fileName? path = some name ↔ LeadsTo path name := by
  constructor
  · intro found
    simp only [fileName?] at found
    split at found
    · rename_i last isLast
      split at found
      · cases found
      rename_i accepted
      obtain rfl := Option.some.inj found
      simp only [Bool.or_eq_true, not_or, Bool.not_eq_true, beq_eq_false_iff_ne,
        isStepInPlace_eq_false_iff, Bool.not_eq_false'] at accepted
      obtain ⟨⟨relative, nonempty, noDot⟩, inPlace⟩ := accepted
      obtain ⟨steps, parts⟩ := List.getLast?_eq_some_iff.1 isLast
      have joined : ['/'].intercalate (path.splitOn '/') = path := List.intercalate_splitOn '/'
      rw [parts, intercalate_append_cons, List.intercalate_singleton] at joined
      rw [parts, List.dropLast_concat, all_isStepInPlace_iff] at inPlace
      have plain : '/' ∉ last := not_mem_of_mem_splitOn '/' path last (by simp [parts])
      exact ⟨⟨steps, joined.symm, inPlace⟩, relative, nonempty, noDot, plain⟩
    · cases found
  · rintro ⟨⟨steps, rfl, inPlace⟩, relative, nonempty, noDot, plain⟩
    have isName := (isStepInPlace_eq_false_iff name).2 ⟨nonempty, noDot⟩
    have allInPlace := (all_isStepInPlace_iff steps).2 inPlace
    have atRoot : ((steps.flatMap (· ++ ['/']) ++ name).head? == some '/') = false :=
      beq_eq_false_iff_ne.2 relative
    rw [fileName?, splitOn_path steps name inPlace plain]
    simp only [List.getLast?_concat, List.dropLast_concat, isName, allInPlace, atRoot]
    rfl

theorem decodedText?_eq_some_iff (bytes : ByteArray) (source : Text) :
    decodedText? bytes = some source ↔ bytes = source.utf8Encode := by
  unfold decodedText? String.fromUTF8?
  constructor
  · intro decoded
    obtain ⟨text, found, rfl⟩ := Option.map_eq_some_iff.1 decoded
    split at found
    · rename_i valid
      cases found
      have encoded : (String.fromUTF8 bytes valid).toList.utf8Encode = bytes :=
        String.utf8Encode_toList
      exact encoded.symm
    · cases found
  · rintro rfl
    have valid : source.utf8Encode.IsValidUTF8 := ⟨source, rfl⟩
    have same : String.fromUTF8 source.utf8Encode valid = String.ofList source :=
      String.toByteArray_inj.1 String.toByteArray_ofList.symm
    rw [dif_pos valid, same, Option.map_some, String.toList_ofList]

namespace Folder

/-- The first file of the name that the path leads to has this text in UTF-8. -/
def Holds (folder : Folder) (path source : Text) : Prop :=
  ∃ before file behind, folder = before ++ file :: behind ∧ LeadsTo path file.name ∧
    (∀ other ∈ before, other.name ≠ file.name) ∧ file.bytes = source.utf8Encode

theorem directory_eq_some_iff (folder : Folder) (path source : Text) :
    folder.directory path = some source ↔ folder.Holds path source := by
  simp only [directory, Option.bind_eq_bind, Option.bind_eq_some_iff, fileName?_eq_some_iff,
    decodedText?_eq_some_iff, List.find?_eq_some_iff_append, beq_iff_eq]
  constructor
  · rintro ⟨_, leads, file, ⟨rfl, before, behind, whole, others⟩, bytes⟩
    exact ⟨before, file, behind, whole, leads, by simpa using others, bytes⟩
  · rintro ⟨before, file, behind, whole, leads, others, bytes⟩
    exact ⟨file.name, leads, file, ⟨rfl, before, behind, whole, by simpa using others⟩, bytes⟩

end Folder

end LedgerLexer
