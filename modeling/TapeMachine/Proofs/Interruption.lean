import TapeMachine.Proofs.LineByLine

/-!
# Reading from a source that is interrupted

A source hands out one line a fetch. Here a reader asks it for one line after the other and stops at
the first delivery that it refuses, or when a fetch finds the end. `Reading.transcribe` is that
course of events with everything that was got, the number of fetches made and the result. A fetch
can fail, and the wish to cancel can arrive with a fetch; the reader looks at the wish when it has
got a delivery, and not at the end.

`result_transcript` says that `read` gives this result for the list of deliveries that
`Arrival.deliveries` makes up beforehand. A failing fetch matters if the reader comes to it
(`Reading.result_failing`), and a wish to cancel if some delivery is got with its fetch or a later
one (`Reading.result_cancelling`). `interrupted_at_line_boundaries` puts this together.
-/

namespace TapeMachine

open Text (Line)

/-! ## Asking for a line -/

namespace Arrival

/-- A fetch that fails. -/
def broken (fetch : Nat) : Arrival :=
  ⟨fetch, .error (Delivery.unreadable brokenSource)⟩

/-- What comes of asking for a line after `n` fetches. The next fetch hands it out; without a line
end it takes one more, which finds nothing. If one of these fetches fails, that comes in its
place. -/
def ask (failing : Option Nat) (n : Nat) (line : Line UInt8) : Arrival :=
  if failing = some (n + 1) then broken (n + 1)
  else if line.terminated then ⟨n + 1, Delivery.ofLine line⟩
  else if failing = some (n + 2) then broken (n + 2)
  else ⟨n + 2, Delivery.ofLine line⟩

/-- What the reader sees of an arrival if the wish to cancel comes with a fetch. -/
def seen : Option Nat → Arrival → Delivery
  | none, a => a.delivery
  | some k, a => if k ≤ a.fetch then .error .cancelled else a.delivery

variable {n q k : Nat} {failing : Option Nat} {line : Line UInt8} {a : Arrival}

theorem seen_of_le (h : k ≤ a.fetch) : a.seen (some k) = .error .cancelled :=
  if_pos h

theorem seen_of_not_le (h : ¬k ≤ a.fetch) : a.seen (some k) = a.seen none :=
  if_neg h

theorem lt_fetch_ask (failing : Option Nat) (n : Nat) (line : Line UInt8) :
    n < (ask failing n line).fetch := by
  unfold ask broken
  split_ifs <;> simp

/-- A failing fetch that is not among those made for a line makes no difference to it. -/
theorem ask_of_not_between (h : q ≤ n ∨ (ask none n line).fetch < q) :
    ask (some q) n line = ask none n line := by
  have hlt := lt_fetch_ask none n line
  have hnext : some q ≠ some (n + 1) := fun heq => by
    rw [Option.some.injEq] at heq
    omega
  unfold ask at h ⊢
  cases hline : line.terminated with
  | true => simp [hnext]
  | false =>
    have hlast : some q ≠ some (n + 2) := fun heq => by
      simp only [hline, reduceCtorEq, if_false, Bool.false_eq_true, Option.some.injEq] at h heq
      omega
    simp [hnext, hlast]

/-- A failing fetch that is made for a line comes in its place. -/
theorem ask_of_between (lower : n < q) (upper : q ≤ (ask none n line).fetch) :
    ask (some q) n line = broken q := by
  unfold ask at upper ⊢
  cases hline : line.terminated with
  | true =>
    simp only [hline, reduceCtorEq, if_false, if_true] at upper
    obtain rfl : q = n + 1 := by omega
    rw [if_pos rfl]
  | false =>
    simp only [hline, reduceCtorEq, if_false, Bool.false_eq_true] at upper
    obtain rfl | rfl : q = n + 1 ∨ q = n + 2 := by omega
    · rw [if_pos rfl]
    · simp

/-- If asking ends with the fetch that fails, it has failed. -/
theorem ask_of_failing (h : failing = some (ask failing n line).fetch) :
    ask failing n line = broken (ask failing n line).fetch := by
  unfold ask at h ⊢
  split_ifs at h ⊢ with hnext hline hlast
  · rfl
  · exact absurd h hnext
  · rfl
  · exact absurd h hlast

/-- If asking does not end with a fetch that fails, none has failed. -/
theorem ask_of_not_failing (h : failing ≠ some (ask failing n line).fetch) :
    ask failing n line = ask none n line := by
  have hnext : failing ≠ some (n + 1) := fun heq => by simp [ask, heq, broken] at h
  unfold ask at h ⊢
  cases hline : line.terminated with
  | true => simp [hnext]
  | false =>
    have hlast : failing ≠ some (n + 2) := fun heq => by simp [hline, heq, broken] at h
    simp [hnext, hlast]

theorem delivery_ask_ne_cancelled : (ask failing n line).delivery ≠ .error .cancelled := by
  have hline : Delivery.ofLine line ≠ .error .cancelled := by
    unfold Delivery.ofLine
    split <;> simp [Delivery.unreadable]
  have hbroken : ∀ fetch, (broken fetch).delivery ≠ .error .cancelled := fun fetch => by
    simp [broken, Delivery.unreadable]
  unfold ask
  split_ifs
  · exact hbroken _
  · exact hline
  · exact hbroken _
  · exact hline

theorem exists_seen_broken (cancelling : Option Nat) (fetch : Nat) :
    ∃ e, (broken fetch).seen cancelling = .error e := by
  cases cancelling with
  | none => exact ⟨_, rfl⟩
  | some k =>
    by_cases h : k ≤ fetch
    · exact ⟨_, seen_of_le h⟩
    · exact ⟨_, seen_of_not_le h⟩

/-! ## What a source has to hand out -/

/-- What a source hands out after `n` fetches, up to the fetch that fails or finds the end. -/
def arrivals (failing : Option Nat) : Nat → List (Line UInt8) → List Arrival
  | n, [] => if failing = some (n + 1) then [broken (n + 1)] else []
  | n, line :: lines =>
    let a := ask failing n line
    if failing = some a.fetch then [a] else a :: arrivals failing a.fetch lines

/-- The fetch that finds the end of a source with these arrivals after `n` fetches. -/
def lastFetch (n : Nat) (as : List Arrival) : Nat :=
  (as.getLast?.map Arrival.fetch).getD n + 1

theorem lastFetch_cons (n : Nat) (a : Arrival) (as : List Arrival) :
    lastFetch n (a :: as) = lastFetch a.fetch as := by
  rw [lastFetch, lastFetch, List.getLast?_cons]
  cases as.getLast? <;> rfl

theorem arrivals_none_cons (n : Nat) (line : Line UInt8) (lines : List (Line UInt8)) :
    arrivals none n (line :: lines) =
      ask none n line :: arrivals none (ask none n line).fetch lines := by
  rw [arrivals, if_neg (by simp)]

theorem lt_fetch_of_mem {lines : List (Line UInt8)} (h : a ∈ arrivals failing n lines) :
    n < a.fetch := by
  induction lines generalizing n with
  | nil =>
    rw [arrivals] at h
    split_ifs at h
    · rw [List.mem_singleton.1 h]
      exact Nat.lt_succ_self n
    · simp at h
  | cons line lines ih =>
    have hlt := lt_fetch_ask failing n line
    rw [arrivals] at h
    split_ifs at h
    · rwa [List.mem_singleton.1 h]
    · rcases List.mem_cons.1 h with rfl | h
      · exact hlt
      · exact hlt.trans (ih h)

/-- Every arrival takes a later fetch than those before it. -/
theorem pairwise_arrivals (failing : Option Nat) (lines : List (Line UInt8)) (n : Nat) :
    (arrivals failing n lines).Pairwise fun a b => a.fetch < b.fetch := by
  induction lines generalizing n with
  | nil =>
    rw [arrivals]
    split_ifs <;> simp
  | cons line lines ih =>
    rw [arrivals]
    split_ifs
    · exact List.pairwise_singleton _ _
    · exact List.pairwise_cons.2 ⟨fun b hb => lt_fetch_of_mem hb, ih _⟩

theorem lt_lastFetch (lines : List (Line UInt8)) (n : Nat) :
    n < lastFetch n (arrivals none n lines) := by
  induction lines generalizing n with
  | nil => exact Nat.lt_succ_self n
  | cons line lines ih =>
    rw [arrivals_none_cons, lastFetch_cons]
    exact (lt_fetch_ask none n line).trans (ih _)

/-- A failing fetch takes the place of the arrivals from its own on. -/
theorem arrivals_some (q : Nat) (lines : List (Line UInt8)) (n : Nat) :
    arrivals (some q) n lines =
      if n < q ∧ q ≤ lastFetch n (arrivals none n lines) then
        (arrivals none n lines).filter (fun a => a.fetch < q) ++ [broken q]
      else arrivals none n lines := by
  induction lines generalizing n with
  | nil =>
    have hiff : some q = some (n + 1) ↔ n < q ∧ q ≤ lastFetch n [] := by
      rw [Option.some.injEq]
      simp only [lastFetch, List.getLast?_nil, Option.map_none, Option.getD_none]
      omega
    simp only [arrivals, hiff, reduceCtorEq, if_false, List.filter_nil, List.nil_append]
    refine ite_congr rfl (fun h => ?_) fun _ => rfl
    rw [← Option.some.inj (hiff.2 h)]
  | cons line lines ih =>
    have hlt := lt_fetch_ask none n line
    have hlast := lt_lastFetch lines (ask none n line).fetch
    rw [arrivals_none_cons, lastFetch_cons, arrivals]
    by_cases hq : n < q ∧ q ≤ (ask none n line).fetch
    · -- the line is not handed out, and neither is any later one
      have hnone : ((ask none n line) :: arrivals none (ask none n line).fetch lines).filter
          (fun a => a.fetch < q) = [] := by
        rw [List.filter_eq_nil_iff]
        intro a ha
        rcases List.mem_cons.1 ha with rfl | ha
        · simpa using hq.2
        · have := lt_fetch_of_mem ha
          simp only [decide_eq_true_eq]
          omega
      have hfetch : some q = some (broken q).fetch := rfl
      rw [ask_of_between hq.1 hq.2, if_pos hfetch, if_pos ⟨hq.1, hq.2.trans hlast.le⟩, hnone,
        List.nil_append]
    · have hask : ask (some q) n line = ask none n line := ask_of_not_between (by omega)
      have hother : some q ≠ some (ask none n line).fetch := fun heq => by
        rw [Option.some.injEq] at heq
        omega
      rw [hask, if_neg hother, ih]
      by_cases hlater : (ask none n line).fetch < q
      · have hn : n < q := hlt.trans hlater
        simp only [hlater, hn, true_and, List.filter_cons, decide_true, if_true]
        split_ifs <;> rfl
      · have hn : ¬n < q := by omega
        rw [if_neg (by omega), if_neg (by omega)]

/-- In each place a source hands out what it would if no fetch failed, or the failure. -/
theorem arrivals_cases {i : Nat} {lines : List (Line UInt8)}
    (h : (arrivals failing n lines)[i]? = some a) :
    (arrivals none n lines)[i]? = some a ∨ ∃ q, failing = some q ∧ a = broken q := by
  induction lines generalizing n i with
  | nil =>
    rw [arrivals] at h
    split_ifs at h with hfail
    · have ha := List.mem_of_getElem? h
      exact .inr ⟨_, hfail, List.mem_singleton.1 ha⟩
    · simp at h
  | cons line lines ih =>
    rw [arrivals] at h
    split_ifs at h with hfail
    · have ha := List.mem_of_getElem? h
      rw [List.mem_singleton, ask_of_failing hfail] at ha
      exact .inr ⟨_, hfail, ha⟩
    · have hask := ask_of_not_failing hfail
      rw [arrivals_none_cons]
      rw [hask] at h
      cases i with
      | zero => exact .inl h
      | succ i => exact ih h

/-- Of the lines of a source all but the last take one fetch each. -/
theorem arrivals_linesOfPieces (pieces : List (List UInt8)) (n : Nat) :
    arrivals none n (Text.linesOfPieces pieces) =
      ((Text.linesOfPieces pieces).zipIdx n).map fun (line, i) =>
        ⟨if line.terminated then i + 1 else i + 2, Delivery.ofLine line⟩ := by
  induction pieces using Text.linesOfPieces.induct generalizing n with
  | case1 => rfl
  | case2 => rfl
  | case3 last h => simp [Text.linesOfPieces, h, arrivals, ask]
  | case4 piece next rest ih =>
    have hask : ask none n ⟨piece, true⟩ = ⟨n + 1, Delivery.ofLine ⟨piece, true⟩⟩ := rfl
    rw [Text.linesOfPieces, arrivals_none_cons, hask, ih]
    rfl

theorem arrivals_none_lines (bytes : List UInt8) :
    arrivals none 0 (Text.lines 0x0a bytes) = ofBytes bytes :=
  arrivals_linesOfPieces _ 0

theorem lastFetch_ofBytes (bytes : List UInt8) : lastFetch 0 (ofBytes bytes) = endFetch bytes :=
  rfl

/-- The list of deliveries that is read is what a source hands out, as the reader sees it. -/
theorem deliveries_eq (cancelling failing : Option Nat) (bytes : List UInt8) :
    deliveries cancelling failing bytes =
      (arrivals failing 0 (Text.lines 0x0a bytes)).map (seen cancelling) := by
  have hnone := arrivals_none_lines bytes
  have hsome : ∀ q, arrivals (some q) 0 (Text.lines 0x0a bytes) = ofBytesFailing q bytes :=
    fun q => by
      rw [arrivals_some, hnone, lastFetch_ofBytes]
      rfl
  cases failing with
  | none =>
    rw [hnone]
    cases cancelling <;> rfl
  | some q =>
    rw [hsome]
    cases cancelling <;> rfl

end Arrival

/-! ## The course of reading -/

namespace Table

/-- What happens when a source is read. -/
structure Transcript where
  /-- The arrivals that the reader got, in order. -/
  items : List Arrival
  /-- The number of fetches made. -/
  fetches : Nat
  /-- What comes of it. -/
  result : Except Error Program

/-- The same with an arrival before all others. -/
def Transcript.after (a : Arrival) (t : Transcript) : Transcript :=
  { t with items := a :: t.items }

namespace Reading

/-- Asks for one line after the other, after `n` fetches, and takes each as it is seen. Reading ends
with the first delivery that is refused, or with the fetch that finds no line. -/
def transcribe (cancelling failing : Option Nat) :
    Reading → Nat → List (Line UInt8) → Transcript
  | r, n, [] =>
    if failing = some (n + 1) then
      ⟨[.broken (n + 1)], n + 1, (r.take ((Arrival.broken (n + 1)).seen cancelling)).bind finish⟩
    else ⟨[], n + 1, r.finish⟩
  | r, n, line :: lines =>
    let a := Arrival.ask failing n line
    match r.take (a.seen cancelling) with
    | .error e => ⟨[a], a.fetch, .error e⟩
    | .ok r' => (r'.transcribe cancelling failing a.fetch lines).after a

variable {cancelling failing : Option Nat} {r : Reading} {n : Nat} {line : Line UInt8}
  {lines : List (Line UInt8)}

theorem take_error (r : Reading) (e : Error) : r.take (.error e) = .error e :=
  rfl

theorem transcribe_of_error {e : Error}
    (h : r.take ((Arrival.ask failing n line).seen cancelling) = .error e) :
    r.transcribe cancelling failing n (line :: lines) =
      ⟨[Arrival.ask failing n line], (Arrival.ask failing n line).fetch, .error e⟩ := by
  rw [transcribe]
  simp only [h]

theorem transcribe_of_ok {r' : Reading}
    (h : r.take ((Arrival.ask failing n line).seen cancelling) = .ok r') :
    r.transcribe cancelling failing n (line :: lines) =
      (r'.transcribe cancelling failing (Arrival.ask failing n line).fetch lines).after
        (Arrival.ask failing n line) := by
  rw [transcribe]
  simp only [h]

/-- A delivery that is taken is no failure, so the source has more to hand out. -/
theorem ne_of_take {r' : Reading}
    (h : r.take ((Arrival.ask failing n line).seen cancelling) = .ok r') :
    failing ≠ some (Arrival.ask failing n line).fetch := by
  intro hfail
  rw [Arrival.ask_of_failing hfail] at h
  obtain ⟨e, he⟩ := Arrival.exists_seen_broken cancelling (Arrival.ask failing n line).fetch
  rw [he, take_error] at h
  simp at h

/-- What comes of asking for one line after the other is what comes of all that the source has to
hand out. -/
theorem result_transcribe (cancelling failing : Option Nat) (lines : List (Line UInt8))
    (r : Reading) (n : Nat) :
    (r.transcribe cancelling failing n lines).result =
      r.takeAll ((Arrival.arrivals failing n lines).map (Arrival.seen cancelling)) := by
  induction lines generalizing r n with
  | nil =>
    rw [transcribe, Arrival.arrivals]
    split_ifs
    · obtain ⟨e, he⟩ := Arrival.exists_seen_broken cancelling (n + 1)
      rw [List.map_singleton, takeAll_cons, he, take_error]
      rfl
    · rfl
  | cons line lines ih =>
    cases htake : r.take ((Arrival.ask failing n line).seen cancelling) with
    | error e =>
      rw [transcribe_of_error htake, Arrival.arrivals]
      split_ifs <;> rw [List.map_cons, takeAll_cons, htake]
    | ok r' =>
      rw [transcribe_of_ok htake, Arrival.arrivals, if_neg (ne_of_take htake), List.map_cons,
        takeAll_cons, htake]
      exact ih r' _

/-! ## A fetch that fails -/

theorem lt_fetches (cancelling failing : Option Nat) (lines : List (Line UInt8)) (r : Reading)
    (n : Nat) : n < (r.transcribe cancelling failing n lines).fetches := by
  induction lines generalizing r n with
  | nil =>
    rw [transcribe]
    split_ifs <;> exact Nat.lt_succ_self n
  | cons line lines ih =>
    have hlt := Arrival.lt_fetch_ask failing n line
    cases htake : r.take ((Arrival.ask failing n line).seen cancelling) with
    | error e =>
      rw [transcribe_of_error htake]
      exact hlt
    | ok r' =>
      rw [transcribe_of_ok htake]
      exact hlt.trans (ih r' _)

/-- A failing fetch ends the reading if the reader comes to it, and makes no difference
otherwise. -/
theorem result_failing (q : Nat) (lines : List (Line UInt8)) (r : Reading) (n : Nat) :
    (r.transcribe none (some q) n lines).result =
      if n < q ∧ q ≤ (r.transcribe none none n lines).fetches then
        .error (Delivery.unreadable Arrival.brokenSource)
      else (r.transcribe none none n lines).result := by
  induction lines generalizing r n with
  | nil =>
    have hiff : some q = some (n + 1) ↔ n < q ∧ q ≤ n + 1 := by
      rw [Option.some.injEq]
      omega
    have hnone : r.transcribe none none n [] = ⟨[], n + 1, r.finish⟩ := rfl
    rw [hnone, transcribe]
    simp only [hiff]
    split_ifs <;> rfl
  | cons line lines ih =>
    have hlt := Arrival.lt_fetch_ask none n line
    have hle : (Arrival.ask none n line).fetch ≤
        (r.transcribe none none n (line :: lines)).fetches := by
      cases htake : r.take ((Arrival.ask none n line).seen none) with
      | error e => rw [transcribe_of_error htake]
      | ok r' =>
        rw [transcribe_of_ok htake]
        exact (lt_fetches none none lines r' _).le
    by_cases hq : n < q ∧ q ≤ (Arrival.ask none n line).fetch
    · -- the fetch fails that would hand out this line, or find that it has no end
      have hbroken : r.take ((Arrival.ask (some q) n line).seen none) =
          .error (Delivery.unreadable Arrival.brokenSource) := by
        rw [Arrival.ask_of_between hq.1 hq.2]
        rfl
      rw [transcribe_of_error hbroken, if_pos ⟨hq.1, hq.2.trans hle⟩]
    · have hask : Arrival.ask (some q) n line = Arrival.ask none n line :=
        Arrival.ask_of_not_between (by omega)
      cases htake : r.take ((Arrival.ask none n line).seen none) with
      | error e =>
        rw [transcribe_of_error htake, transcribe_of_error (hask ▸ htake), if_neg hq]
      | ok r' =>
        have hlater : n < q ↔ (Arrival.ask none n line).fetch < q := by omega
        rw [transcribe_of_ok htake, transcribe_of_ok (hask ▸ htake), hask]
        simp only [Transcript.after, ih, hlater]

/-! ## A wish to cancel -/

/-- The wish to cancel is granted if some delivery is got with its fetch or a later one, and makes
no difference otherwise. -/
theorem result_cancelling (k : Nat) (failing : Option Nat) (lines : List (Line UInt8))
    (r : Reading) (n : Nat) :
    (r.transcribe (some k) failing n lines).result =
      if ∃ a ∈ (r.transcribe none failing n lines).items, k ≤ a.fetch then .error .cancelled
      else (r.transcribe none failing n lines).result := by
  induction lines generalizing r n with
  | nil =>
    rw [transcribe, transcribe]
    split_ifs with hfail hwish hwish
    · obtain ⟨a, ha, hk⟩ := hwish
      rw [List.mem_singleton.1 ha] at hk
      rw [Arrival.seen_of_le hk]
      rfl
    · rw [Arrival.seen_of_not_le fun hk => hwish ⟨_, List.mem_singleton_self _, hk⟩]
    · simp at hwish
    · rfl
  | cons line lines ih =>
    by_cases hk : k ≤ (Arrival.ask failing n line).fetch
    · have hcancel : r.take ((Arrival.ask failing n line).seen (some k)) = .error .cancelled := by
        rw [Arrival.seen_of_le hk, take_error]
      have hmem : Arrival.ask failing n line ∈
          (r.transcribe none failing n (line :: lines)).items := by
        cases htake : r.take ((Arrival.ask failing n line).seen none) with
        | error e =>
          rw [transcribe_of_error htake]
          exact List.mem_singleton_self _
        | ok r' =>
          rw [transcribe_of_ok htake]
          exact List.mem_cons_self
      rw [transcribe_of_error hcancel, if_pos ⟨_, hmem, hk⟩]
    · have hsame := Arrival.seen_of_not_le hk
      cases htake : r.take ((Arrival.ask failing n line).seen none) with
      | error e =>
        rw [transcribe_of_error htake, transcribe_of_error (hsame ▸ htake)]
        simp [hk]
      | ok r' =>
        rw [transcribe_of_ok htake, transcribe_of_ok (hsame ▸ htake)]
        simp only [Transcript.after, ih, List.mem_cons, exists_eq_or_imp, hk, false_or]

/-- A reader that refuses a line does not take it for a wish to cancel. -/
theorem take_ne_cancelled {d : Delivery} (h : d ≠ .error .cancelled) (r : Reading) :
    r.take d ≠ .error .cancelled := by
  intro ht
  cases d with
  | error e =>
    rw [take_error] at ht
    cases ht
    exact h rfl
  | ok line => cases lineError_of_take ht

/-- Without a wish to cancel nothing is cancelled. -/
theorem result_ne_cancelled (failing : Option Nat) (lines : List (Line UInt8)) (r : Reading)
    (n : Nat) : (r.transcribe none failing n lines).result ≠ .error .cancelled := by
  induction lines generalizing r n with
  | nil =>
    rw [transcribe]
    split_ifs
    · exact fun h => Error.noConfusion (Except.error.inj h)
    · unfold finish complete
      split_ifs <;> simp
  | cons line lines ih =>
    have htake' : r.take ((Arrival.ask failing n line).seen none) ≠ .error .cancelled :=
      take_ne_cancelled Arrival.delivery_ask_ne_cancelled r
    cases htake : r.take ((Arrival.ask failing n line).seen none) with
    | error e =>
      rw [transcribe_of_error htake]
      intro h
      rw [htake, Except.error.inj h] at htake'
      exact htake' rfl
    | ok r' =>
      rw [transcribe_of_ok htake]
      exact ih r' _

/-! ## What the reader gets -/

/-- What the reader gets is the beginning of what the source has to hand out. -/
theorem items_isPrefix (cancelling failing : Option Nat) (lines : List (Line UInt8)) (r : Reading)
    (n : Nat) :
    (r.transcribe cancelling failing n lines).items <+: Arrival.arrivals failing n lines := by
  induction lines generalizing r n with
  | nil =>
    rw [transcribe, Arrival.arrivals]
    split_ifs <;> exact List.prefix_rfl
  | cons line lines ih =>
    rw [Arrival.arrivals]
    cases htake : r.take ((Arrival.ask failing n line).seen cancelling) with
    | error e =>
      rw [transcribe_of_error htake]
      split_ifs
      · exact List.prefix_rfl
      · exact List.prefix_cons_inj _ |>.2 List.nil_prefix
    | ok r' =>
      rw [transcribe_of_ok htake, if_neg (ne_of_take htake)]
      exact List.prefix_cons_inj _ |>.2 (ih r' _)

theorem pairwise_items (cancelling failing : Option Nat) (lines : List (Line UInt8)) (r : Reading)
    (n : Nat) :
    (r.transcribe cancelling failing n lines).items.Pairwise fun a b => a.fetch < b.fetch :=
  (Arrival.pairwise_arrivals failing lines n).sublist
    (items_isPrefix cancelling failing lines r n).sublist

end Reading

/-! ## Interruptions -/

/-- What happens when a source of bytes is read, with the number of the fetch that fails and of the
one that brings the wish to cancel, if there are such. -/
def transcript (cancelling failing : Option Nat) (bytes : List UInt8) : Transcript :=
  Reading.start.transcribe cancelling failing 0 (Text.lines 0x0a bytes)

/-- The deliveries of a source, all listed beforehand, are read with the result of asking for one
line after the other. -/
theorem result_transcript (cancelling failing : Option Nat) (bytes : List UInt8) (j : Journal) :
    ((read (Arrival.deliveries cancelling failing bytes)).run j).1 =
      (transcript cancelling failing bytes).result := by
  rw [read_result, ← takeAll_start, Arrival.deliveries_eq, transcript, Reading.result_transcribe]

/-- What is got from a source in each place is its line there, or the failure of a fetch. Each line
takes one fetch, and one more if it has no line end. -/
theorem items_transcript {cancelling failing : Option Nat} {bytes : List UInt8} {i : Nat}
    {a : Arrival} (h : (transcript cancelling failing bytes).items[i]? = some a) :
    (∃ line, (Text.lines 0x0a bytes)[i]? = some line ∧
      a = ⟨if line.terminated then i + 1 else i + 2, Delivery.ofLine line⟩) ∨
    ∃ q, failing = some q ∧ a = .broken q := by
  obtain ⟨rest, hrest⟩ : (transcript cancelling failing bytes).items <+: _ :=
    Reading.items_isPrefix cancelling failing _ _ _
  have hsource : (Arrival.arrivals failing 0 (Text.lines 0x0a bytes))[i]? = some a := by
    rw [← hrest, List.getElem?_append_left (List.getElem?_eq_some_iff.1 h).1, h]
  refine (Arrival.arrivals_cases hsource).imp_left fun hline => ?_
  rw [Arrival.arrivals_none_lines, Arrival.ofBytes, List.getElem?_map, List.getElem?_zipIdx,
    Option.map_map, Option.map_eq_some_iff] at hline
  obtain ⟨line, hline, rfl⟩ := hline
  exact ⟨line, hline, by simp⟩

/-- Interruptions take effect at the boundaries of lines. The reader gets one line after the other,
or the failure of a fetch; each line takes one fetch, and one more if it has no line end. A failing
fetch breaks the reading off if the undisturbed reading comes to it, and otherwise changes nothing.
A wish to cancel is granted if the reading that is not cancelled gets a line, or a failure in its
place, with the fetch that brings the wish or a later one; otherwise it changes nothing. So the last
arrival alone decides whether it is granted. -/
theorem interrupted_at_line_boundaries (bytes : List UInt8) (j : Journal) :
    let result := fun cancelling failing =>
      ((read (Arrival.deliveries cancelling failing bytes)).run j).1
    let course := fun cancelling failing => transcript cancelling failing bytes
    (∀ cancelling failing, result cancelling failing = (course cancelling failing).result) ∧
    (∀ cancelling failing i a, (course cancelling failing).items[i]? = some a →
      (∃ line, (Text.lines 0x0a bytes)[i]? = some line ∧
        a = Arrival.mk (if line.terminated then i + 1 else i + 2) (Delivery.ofLine line)) ∨
      ∃ q, failing = some q ∧ a = .broken q) ∧
    (∀ q, result none (some q) =
      if 1 ≤ q ∧ q ≤ (course none none).fetches then
        .error (.fileError "Failed to read program: broken reader")
      else result none none) ∧
    (∀ failing k, result (some k) failing =
      if ∃ a ∈ (course none failing).items, k ≤ a.fetch then .error .cancelled
      else result none failing) ∧
    (∀ failing before a, (course none failing).items = before ++ [a] →
      ∀ k, result (some k) failing = .error .cancelled ↔ k ≤ a.fetch) := by
  intro result course
  have hresult : ∀ cancelling failing,
      result cancelling failing = (course cancelling failing).result :=
    fun cancelling failing => result_transcript cancelling failing bytes j
  have hcancel : ∀ failing k, result (some k) failing =
      if ∃ a ∈ (course none failing).items, k ≤ a.fetch then .error .cancelled
      else result none failing := fun failing k => by
    rw [hresult, hresult]
    exact Reading.result_cancelling k failing _ _ _
  refine ⟨hresult, fun cancelling failing i a => items_transcript, fun q => ?_, hcancel,
    fun failing before a hitems k => ?_⟩
  · rw [hresult, hresult]
    exact Reading.result_failing q _ _ _
  · have hnever : result none failing ≠ .error .cancelled := by
      rw [hresult]
      exact Reading.result_ne_cancelled failing _ _ _
    have hsorted : (before ++ [a]).Pairwise fun a b => a.fetch < b.fetch := by
      rw [← hitems]
      exact Reading.pairwise_items none failing _ _ _
    have hlast : ∀ b ∈ before, b.fetch < a.fetch := fun b hb =>
      (List.pairwise_append.1 hsorted).2.2 b hb a (List.mem_singleton_self a)
    rw [hcancel, hitems]
    constructor
    · intro h
      split_ifs at h with hwish
      · obtain ⟨b, hb, hk⟩ := hwish
        rcases List.mem_append.1 hb with hb | hb
        · exact hk.trans (hlast b hb).le
        · rwa [List.mem_singleton.1 hb] at hk
      · exact absurd h hnever
    · intro hk
      rw [if_pos ⟨a, by simp, hk⟩]

end Table

end TapeMachine
