import TapeMachine.Error
import TapeMachine.Text.Lines

/-!
# Deliveries

A state table is read line by line from a source that can break off. A delivery is what the
source hands over when it is asked for the next line: the line, or the error that came in its
place. The reader of tables (`TapeMachine.Table.Reader`) takes a list of deliveries and stops at
the first error.

Sources are a text, a list of bytes, and bytes fetched one line at a time, where a fetch can
fail and where the wish to cancel can arrive with a fetch.
-/

namespace TapeMachine

/-- A line, or the error that came in its place. -/
abbrev Delivery := Except Error String

namespace Delivery

/-! ## Texts and bytes -/

/-- The error of a source that breaks off for the given reason. -/
def unreadable (reason : String) : Error :=
  .fileError ("Failed to read program: " ++ reason)

/-- The reason given for bytes that are not UTF-8. -/
def notUtf8 : String := "stream did not contain valid UTF-8"

/-- The lines of a text. -/
def ofText (text : String) : List Delivery :=
  (Text.lines '\n' text.toList).map fun line => .ok (String.ofList (line.content '\r'))

/-- A line of bytes, decoded. -/
def ofLine (line : Text.Line UInt8) : Delivery :=
  match String.fromUTF8? ⟨(line.content 0x0d).toArray⟩ with
  | some s => .ok s
  | none => .error (unreadable notUtf8)

/-- The lines of a list of bytes; each line is decoded by itself. -/
def ofBytes (bytes : List UInt8) : List Delivery :=
  (Text.lines 0x0a bytes).map ofLine

end Delivery

/-! ## Fetches -/

/-- A delivery and the number of the fetch that completed it. -/
structure Arrival where
  /-- The number of the fetch, from 1. -/
  fetch : Nat
  /-- What was handed over. -/
  delivery : Delivery

namespace Arrival

/-- The deliveries of a source that hands out one line a fetch. A line without a line end is
complete only when the fetch after it finds nothing more. -/
def ofBytes (bytes : List UInt8) : List Arrival :=
  (Text.lines 0x0a bytes).zipIdx.map fun (line, i) =>
    ⟨if line.terminated then i + 1 else i + 2, Delivery.ofLine line⟩

/-- The number of the fetch that finds the end of the source. -/
def endFetch (bytes : List UInt8) : Nat :=
  ((ofBytes bytes).getLast?.map Arrival.fetch).getD 0 + 1

/-- The reason given by a source whose fetch fails. -/
def brokenSource : String := "broken reader"

/-- The deliveries of a source whose fetch number `failing` fails. The failure takes the place
of the line it would have completed, and of all that follow. -/
def ofBytesFailing (failing : Nat) (bytes : List UInt8) : List Arrival :=
  if 1 ≤ failing ∧ failing ≤ endFetch bytes then
    (ofBytes bytes).filter (fun a => a.fetch < failing) ++
      [⟨failing, .error (Delivery.unreadable brokenSource)⟩]
  else
    ofBytes bytes

/-- What the reader sees when the wish to cancel arrives with fetch number `cancelling`: the
flag is looked at once a delivery has been got and before it is used. -/
def cancelledAt (cancelling : Nat) (arrivals : List Arrival) : List Delivery :=
  arrivals.map fun a => if cancelling ≤ a.fetch then .error .cancelled else a.delivery

/-- What the reader sees of a source that is read line by line, with the number of the fetch
that fails and of the one that brings the wish to cancel, if there are such. -/
def deliveries (cancelling failing : Option Nat) (bytes : List UInt8) : List Delivery :=
  let arrivals := match failing with
    | some n => ofBytesFailing n bytes
    | none => ofBytes bytes
  match cancelling with
  | some n => cancelledAt n arrivals
  | none => arrivals.map Arrival.delivery

end Arrival

/-- What the reader sees when somebody has asked to stop before it starts: the wish is granted
in place of the first delivery. -/
def Delivery.withCancel (cancelled : Bool) (deliveries : List Delivery) : List Delivery :=
  if cancelled then deliveries.map fun _ => .error .cancelled else deliveries

end TapeMachine
