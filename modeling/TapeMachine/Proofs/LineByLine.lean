import TapeMachine.Proofs.ProgramMap
import TapeMachine.Proofs.TableCells

/-!
# Reading line by line

`findings` looks at all deliveries of a source at once. A reader that asks for one after the other
knows at any time how many lines it has got, the names of the header once there was one, and the
program so far (`Reading`). `Reading.take` takes the next delivery, and `Reading.takeAll` takes
deliveries until one is refused or there are no more.

Both ways of reading come to the same (`takeAll_start`). Deliveries after one that is refused do not
matter to `takeAll`, so a reader need not ask for them.
-/

namespace TapeMachine

theorem Program.isEmpty_ofEntries (es : List Entry) :
    (Program.ofEntries es).isEmpty = es.isEmpty := by
  rcases List.eq_nil_or_concat es with rfl | ⟨es, e, rfl⟩
  · rfl
  · have hstate : (ofEntries (es ++ [e])).containsState e.state = true := by
      rw [ofEntries_concat, containsState_insert, decide_eq_true rfl, Bool.true_or]
    have hrows : (ofEntries (es ++ [e])).isEmpty = false := by
      refine Std.ExtTreeMap.isEmpty_eq_false_iff.2 fun hnone => ?_
      rw [containsState, hnone] at hstate
      simp at hstate
    rw [List.concat_eq_append, hrows]
    simp

namespace Table

/-! ## Findings, entered one by one -/

/-- Enters findings into a program, up to the first error. -/
def enter (p : Program) : List (Except Error Finding) → Except Error Program
  | [] => .ok p
  | .error e :: _ => .error e
  | .ok (.header ..) :: found => enter p found
  | .ok (.cell e) :: found => enter (p.add e) found

/-- The outcome of a program that has been read to the end. -/
def complete (p : Program) : Except Error Program :=
  if p.isEmpty then .error .noTransitions else .ok p

theorem enter_append (found found' : List (Except Error Finding)) (p : Program) :
    enter p (found ++ found') = (enter p found).bind (enter · found') := by
  induction found generalizing p with
  | nil => rfl
  | cons f found ih =>
    rcases f with e | _ | e
    · rfl
    · exact ih p
    · exact ih (p.add e)

theorem enter_eq (found : List (Except Error Finding)) (p : Program) :
    enter p found = match failure? found with
      | some e => .error e
      | none => .ok ((cells found).foldl Program.add p) := by
  induction found generalizing p with
  | nil => rfl
  | cons f found ih =>
    rcases f with e | _ | e
    · rfl
    · exact ih p
    · exact ih (p.add e)

/-- A program is refused for an error among its findings. -/
theorem error_mem_of_enter {e : Error} {found : List (Except Error Finding)} {p : Program}
    (h : enter p found = .error e) : .error e ∈ found := by
  induction found generalizing p with
  | nil => simp [enter] at h
  | cons f found ih =>
    rcases f with e' | _ | e'
    · rw [enter, Except.error.injEq] at h
      rw [h]
      exact List.mem_cons_self
    · exact List.mem_cons_of_mem _ (ih h)
    · exact List.mem_cons_of_mem _ (ih h)

/-- The outcome of findings is that of the program they are entered into. -/
theorem outcome_eq_enter (found : List (Except Error Finding)) :
    outcome found = (enter .empty found).bind complete := by
  rw [outcome, enter_eq]
  cases failure? found with
  | some e => rfl
  | none =>
    change _ = complete (.ofEntries (cells found))
    rw [complete, Program.isEmpty_ofEntries]

/-! ## The reader -/

/-- The errors for which a line is refused. -/
inductive LineError : Error → Prop
  | parseTransition (field reason : String) : LineError (.parseTransition field reason)
  | columnOutOfRange (line column : Nat) : LineError (.columnOutOfRange line column)

/-- What a reader knows that has taken some deliveries. -/
structure Reading where
  /-- The number of lines taken. -/
  lines : Nat
  /-- The state names of the header, if it has been found. -/
  names : Option (List String)
  /-- The program so far. -/
  program : Program

namespace Reading

/-- Nothing has been taken. -/
def start : Reading :=
  ⟨0, none, .empty⟩

/-- Takes a delivery. A line is looked at for a header until one has been found, and is a row after
that. An error is refused, and so is a row that holds one. -/
def take (r : Reading) : Delivery → Except Error Reading
  | .error e => .error e
  | .ok line =>
    match r.names with
    | none =>
      .ok ⟨r.lines + 1, if isHeader line then some (headerStates line) else none, r.program⟩
    | some names =>
      (enter r.program (rowFindings names (r.lines + 1) line)).map
        fun p => ⟨r.lines + 1, some names, p⟩

/-- The outcome when there are no more deliveries. -/
def finish (r : Reading) : Except Error Program :=
  complete r.program

/-- Takes deliveries until one is refused or there are no more. -/
def takeAll (r : Reading) : List Delivery → Except Error Program
  | [] => r.finish
  | d :: ds =>
    match r.take d with
    | .error e => .error e
    | .ok r' => r'.takeAll ds

theorem takeAll_cons (r : Reading) (d : Delivery) (ds : List Delivery) :
    r.takeAll (d :: ds) = match r.take d with
      | .error e => .error e
      | .ok r' => r'.takeAll ds :=
  rfl

theorem take_row (names : List String) (n : Nat) (p : Program) (row : String) :
    take ⟨n, some names, p⟩ (.ok row) =
      (enter p (rowFindings names (n + 1) row)).map fun q => ⟨n + 1, some names, q⟩ :=
  rfl

/-- After the header the reader enters what the deliveries hold. -/
theorem takeAll_rows (names : List String) (ds : List Delivery) (n : Nat) (p : Program) :
    takeAll ⟨n, some names, p⟩ ds =
      (enter p ((ds.zipIdx (n + 1)).flatMap fun (d, line) => deliveryFindings names line d)).bind
        complete := by
  induction ds generalizing n p with
  | nil => rfl
  | cons d ds ih =>
    rw [takeAll_cons, List.zipIdx_cons, List.flatMap_cons, enter_append]
    cases d with
    | error e => rfl
    | ok row =>
      rw [take_row]
      simp only [deliveryFindings]
      cases enter p (rowFindings names (n + 1) row) with
      | error e => rfl
      | ok q => exact ih (n + 1) q

/-- Free lines are counted and passed over. -/
theorem takeAll_free {free : List Delivery} (hfree : ∀ d ∈ free, isFreeLine d = true)
    (ds : List Delivery) (n : Nat) (p : Program) :
    takeAll ⟨n, none, p⟩ (free ++ ds) = takeAll ⟨n + free.length, none, p⟩ ds := by
  induction free generalizing n with
  | nil => rfl
  | cons d free ih =>
    have hd := hfree d List.mem_cons_self
    cases d with
    | error e => simp [isFreeLine] at hd
    | ok line =>
      have hline : isHeader line = false := by simpa [isFreeLine] using hd
      have htake : take ⟨n, none, p⟩ (.ok line) = .ok ⟨n + 1, none, p⟩ := by
        simp [take, hline]
      rw [List.cons_append, takeAll_cons, htake, List.length_cons, Nat.add_comm free.length,
        ← Nat.add_assoc]
      exact ih (fun d hd => hfree d (List.mem_cons_of_mem _ hd)) (n + 1)

/-! ### Lines that are refused -/

theorem eq_error_of_map {α β : Type} {f : α → β} {x : Except Error α} {e : Error}
    (h : x.map f = .error e) : x = .error e := by
  cases x with
  | error e' => simpa [Except.map] using h
  | ok a => simp [Except.map] at h

theorem lineError_of_entry {names : List String} {c : Cell} {e : Error}
    (h : c.entry names = .error e) : LineError e := by
  unfold Cell.entry at h
  split at h
  · cases h
    exact .columnOutOfRange _ _
  · have hfield := eq_error_of_map h
    unfold Transition.ofField at hfield
    split at hfield
    · cases hfield
      exact .parseTransition _ _
    · split at hfield <;> cases hfield
      exact .parseTransition _ _

/-- A line is refused for one of its cells. -/
theorem lineError_of_take {r : Reading} {line : String} {e : Error}
    (h : r.take (.ok line) = .error e) : LineError e := by
  obtain ⟨n, names, p⟩ := r
  cases names with
  | none => simp [take] at h
  | some names =>
    rw [take_row, rowFindings_eq] at h
    obtain ⟨c, -, hc⟩ := List.mem_map.1 (error_mem_of_enter (eq_error_of_map h))
    exact lineError_of_entry (eq_error_of_map hc)

end Reading

/-! ## Both ways of reading agree -/

theorem dropWhile_zipIdx_of_free {free : List Delivery} (hfree : ∀ d ∈ free, isFreeLine d = true)
    (ds : List Delivery) :
    ((free ++ ds).zipIdx 1).dropWhile (fun (d, _) => isFreeLine d) =
      (ds.zipIdx (free.length + 1)).dropWhile fun (d, _) => isFreeLine d := by
  rw [List.zipIdx_append, List.dropWhile_append_of_pos, Nat.add_comm]
  exact fun d hd => hfree _ (List.fst_mem_of_mem_zipIdx hd)

/-- A reader that takes one delivery after the other comes to the outcome of all of them. -/
theorem takeAll_start (ds : List Delivery) : Reading.start.takeAll ds = outcome (findings ds) := by
  rw [outcome_eq_enter]
  cases h : ds.find? fun d => !isFreeLine d with
  | none =>
    have hfree : ∀ d ∈ ds, isFreeLine d = true := by simpa using List.find?_eq_none.1 h
    have hread := Reading.takeAll_free hfree [] 0 .empty
    have hfind := dropWhile_zipIdx_of_free hfree []
    rw [List.append_nil] at hread hfind
    rw [Reading.start, hread, findings, hfind]
    rfl
  | some d =>
    obtain ⟨hd, free, rest, rfl, hfree⟩ := List.find?_eq_some_iff_append.1 h
    have hd' : isFreeLine d = false := by simpa using hd
    have hfree' : ∀ a ∈ free, isFreeLine a = true := by simpa using hfree
    rw [Reading.start, Reading.takeAll_free hfree', findings, dropWhile_zipIdx_of_free hfree',
      List.zipIdx_cons, List.dropWhile_cons_of_neg (by simp [hd']), Reading.takeAll_cons,
      Nat.zero_add]
    cases d with
    | error e => rfl
    | ok header =>
      have hheader : isHeader header = true := by simpa [isFreeLine] using hd'
      have htake : Reading.take ⟨free.length, none, .empty⟩ (.ok header) =
          .ok ⟨free.length + 1, some (headerStates header), .empty⟩ := by
        simp [Reading.take, hheader]
      rw [htake]
      exact Reading.takeAll_rows (headerStates header) rest (free.length + 1) .empty

end Table

end TapeMachine
