import TapeMachine.Program.Json
import TapeMachine.Proofs.JsonRoundTrip
import TapeMachine.Proofs.ProgramMap

/-!
# Programs written as JSON are read back

The value that a program is written as is legible, so the reader of JSON gives it back
(`Program.legible_toJson`). The members of its objects are the pairs of its maps in ascending order,
and reading them enters the pairs into an empty map one after the other (`Row.addMembers?_members`,
`Program.addMembers?_members`). A map has every key once, so that makes the map that was written
(`insertMany_toList`). `Program.parseJson?_json` is the main statement.
-/

namespace TapeMachine

/-- An object is legible if its keys are texts and its values are legible. -/
theorem Json.legible_object_map {α : Type} {items : List α} {key : α → List Char} {value : α → Json}
    (h : ∀ item ∈ items, (value item).Legible) :
    (Json.object (items.map fun item => (some (key item), value item))).Legible := by
  refine .object (fun m hm => ?_) fun m hm => ?_
  · obtain ⟨item, -, rfl⟩ := List.mem_map.1 hm
    rfl
  · obtain ⟨item, hitem, rfl⟩ := List.mem_map.1 hm
    exact h item hitem

theorem Direction.ofJson?_toJson (d : Direction) : ofJson? d.toJson = some d := by
  cases d <;> rfl

namespace Transition

theorem legible_toJson (t : Transition) : t.toJson.Legible := by
  refine Json.legible_object_map fun part hpart => ?_
  simp only [List.mem_cons, List.not_mem_nil, or_false] at hpart
  rcases hpart with rfl | rfl | rfl <;> exact .string _

theorem ofJson?_toJson (t : Transition) : ofJson? t.toJson = some t := by
  have hparts : ofParts? (.text t.next) (.string (some [t.write])) t.direction.toJson = some t := by
    simp [ofParts?, Json.text, Json.text?, Json.symbol?, Direction.ofJson?_toJson]
  simp [toJson, ofJson?, only?, nextKey, writeKey, directionKey, Json.record, hparts]

end Transition

namespace Row

theorem legible_toJson (row : Row) : row.toJson.Legible :=
  Json.legible_object_map fun (_, t) _ => t.legible_toJson

/-- The members written for pairs enter the pairs into a row. -/
theorem addMembers?_members (row : Row) (pairs : List (Char × Transition)) :
    addMembers? row (pairs.map fun (symbol, t) => (some [symbol], t.toJson)) =
      some (row.insertMany pairs) := by
  induction pairs generalizing row with
  | nil => simp [addMembers?]
  | cons pair pairs ih =>
    rw [List.map_cons, addMembers?, Transition.ofJson?_toJson, Std.ExtTreeMap.insertMany_cons]
    exact ih _

theorem ofJson?_toJson (row : Row) : ofJson? row.toJson = some row := by
  rw [toJson, ofJson?, addMembers?_members, insertMany_toList]

end Row

namespace Program

theorem legible_toJson (p : Program) : p.toJson.Legible :=
  Json.legible_object_map fun (_, row) _ => Row.legible_toJson row

/-- The members written for rows enter the rows into a program. -/
theorem addMembers?_members (p : Program) (rows : List (String × Row)) :
    addMembers? p (rows.map fun (state, row) => (some state.toList, row.toJson)) =
      some ⟨p.rows.insertMany rows⟩ := by
  induction rows generalizing p with
  | nil => simp [addMembers?]
  | cons pair rows ih =>
    rw [List.map_cons, addMembers?, Row.ofJson?_toJson, String.ofList_toList,
      Std.ExtTreeMap.insertMany_cons]
    exact ih _

/-- A program is read back from the JSON text it is written as, whatever its states, symbols and
transitions, and whether or not its rows are empty. -/
theorem parseJson?_json (p : Program) : parseJson? p.json = some p := by
  rw [parseJson?, json, Json.parse?_render p.legible_toJson, Option.bind_some, toJson, ofJson?,
    addMembers?_members]
  exact congrArg (fun rows => some (Program.mk rows)) (insertMany_toList p.rows)

end Program

end TapeMachine
