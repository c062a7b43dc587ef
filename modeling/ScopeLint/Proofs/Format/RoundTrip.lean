import ScopeLint.Proofs.Format.Admission
import ScopeLint.Proofs.Format.Reals

/-!
Reading and writing are inverse on what can be read. A tree that some text spells nests within
the limit when it is written. What is written of it is read as that tree again, if the digits of
each of its reals are.
-/

set_option autoImplicit false

namespace ScopeLint.Format

theorem read_text {kind : Kind} {node : kind.Carrier}
    (fits : (kind.toJson node).Fits RealReadsBack depthLimit) :
    read kind (kind.toJson node).text = .ok node :=
  readWhole_text_of_gives
    (recovers_readForm depthLimit (.value (.node kind)) node List.nodup_nil fits)

theorem fits_of_read {kind : Kind} {text : String} {node : kind.Carrier}
    (isRead : read kind text = .ok node) :
    (kind.toJson node).Fits (·.isFinite) depthLimit := by
  unfold read readWhole at isRead
  split at isRead
  next => exact nomatch isRead
  next content rest formRead =>
      split at isRead
      next =>
          cases isRead
          exact admits_readForm depthLimit (.value (.node kind)) _ rest node formRead
      next => exact nomatch isRead

end ScopeLint.Format

namespace ScopeLint.Program

private theorem exists_ok_of_map {ε α β : Type} {outcome : Except ε α} (view : α → β)
    {seen : β} (isSeen : outcome.toOption.map view = some seen) :
    ∃ value, outcome = .ok value ∧ view value = seen := by
  cases outcome with
  | error problem => exact nomatch isSeen
  | ok value => exact ⟨value, rfl, Option.some.inj isSeen⟩

/-- A program that was read from any text is written within the limit of open brackets. Reading
what is written gives the program again. Of its reals it is assumed that each of them by itself
is read back from its digits. -/
theorem read_text_toJson {text : String} {program : Program}
    (isRead : Format.read .program text = .ok program) :
    program.toJson.depth ≤ Format.depthLimit ∧
      ((∀ value, Format.HasReal value (.value (.node .program)) program →
          Format.RealReadsBack value) →
        Format.read .program program.toJson.text = .ok program) := by
  have fits := Format.fits_of_read isRead
  refine ⟨fits.depth_le, fun readBack => ?_⟩
  apply Format.read_text
  exact ⟨fits.depth_le, fun value isReal => readBack value (Format.mem_reals_toJson_iff.mp isReal)⟩

/-- Arrays for records, keys out of order, an unknown key, a bare case as an object, a field left
out and a real with an exponent. -/
def looseText : String :=
  "\x7b\"note\":[\x7b\x7d],\"items\":[\x7b\"Procedure\":\x7b\"body\":[[]]," ++
    "\"name\":[\"M\\u0041IN\",4]\x7d\x7d,\x7b\"Decl\":\x7b\"Var\":[[\"x\",5]," ++
    "\x7b\"Integer\":null\x7d]\x7d\x7d,\x7b\"Decl\":\x7b\"Const\":[[\"half\",6]," ++
    "\x7b\"Literal\":\x7b\"Number\":\x7b\"Real\":5e-1\x7d\x7d\x7d]\x7d\x7d]\x7d"

/-- What is written of the same program. -/
def compactText : String :=
  "\x7b\"items\":[\x7b\"Procedure\":\x7b\"name\":\x7b\"name\":\"MAIN\",\"line\":4\x7d," ++
    "\"params\":null,\"body\":\x7b\"items\":[]\x7d\x7d\x7d,\x7b\"Decl\":\x7b\"Var\":" ++
    "\x7b\"name\":\x7b\"name\":\"x\",\"line\":5\x7d,\"ty\":\"Integer\"\x7d\x7d\x7d," ++
    "\x7b\"Decl\":\x7b\"Const\":\x7b\"name\":\x7b\"name\":\"half\",\"line\":6\x7d," ++
    "\"value\":\x7b\"Literal\":\x7b\"Number\":\x7b\"Real\":0.5\x7d\x7d\x7d\x7d\x7d\x7d]\x7d"

/-- The two texts differ, and the program with its one real survives both of them. -/
theorem read_text_toJson_loose :
    ∃ program : Program,
      Format.read .program looseText = .ok program ∧ program.toJson.text = compactText ∧
      program.toJson.depth ≤ Format.depthLimit ∧
      (∀ value, Format.HasReal value (.value (.node .program)) program →
        Format.RealReadsBack value) ∧
      Format.read .program program.toJson.text = .ok program := by
  have halfReadsBack : Format.RealReadsBack ⟨0x3FE0000000000000⟩ := by decide +kernel
  have seen : (Format.read .program looseText).toOption.map
      (fun program : Program => (program.toJson.text, program.toJson.reals)) =
        some (compactText, [⟨0x3FE0000000000000⟩]) := by decide +kernel
  obtain ⟨program, isRead, isSeen⟩ := exists_ok_of_map _ seen
  obtain ⟨isText, isReals⟩ := Prod.mk.inj isSeen
  have readBack (value : Binary64)
      (has : Format.HasReal value (.value (.node .program)) program) :
      Format.RealReadsBack value := by
    have isMember := has.mem_reals
    change value ∈ program.toJson.reals at isMember
    rw [isReals] at isMember
    rw [List.mem_singleton.mp isMember]
    exact halfReadsBack
  obtain ⟨shallow, whole⟩ := read_text_toJson isRead
  exact ⟨program, isRead, isText, shallow, readBack, whole readBack⟩

end ScopeLint.Program
