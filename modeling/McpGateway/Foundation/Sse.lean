import McpGateway.Foundation.Go

/-!
# Event streams

Server-sent events as a client decodes them: lines that end with a line feed, or with a carriage return and
a line feed, are read as fields; an empty line ends an event, and an event without data is none.
-/

namespace Sse

open Go

def stripCR (line : Bytes) : Bytes :=
  if line.getLast? = some 0x0D then line.dropLast else line

/-- A text cut at its line feeds. -/
def split (text : Bytes) : List Bytes := splitList (· == 0x0A) text

/-- The lines of a stream without their ends.  What is not ended is not a line. -/
def lines (text : Bytes) : List Bytes := (split text).dropLast.map stripCR

/-- The name and the value of a field; a comment is no field. -/
def field (line : Bytes) : Option (Bytes × Bytes) :=
  let name := line.takeWhile (· != 0x3A)
  let rest := line.dropWhile (· != 0x3A)
  let value := rest.drop 1
  if name = [] ∧ rest ≠ [] then none
  else some (name, if value.head? = some 0x20 then value.drop 1 else value)

/-- The fields of the events, given those of the event that has begun. -/
def blocks : List (Bytes × Bytes) → List Bytes → List (List (Bytes × Bytes))
  | _, [] => []
  | begun, line :: rest =>
    if line = [] then begun :: blocks [] rest else blocks (begun ++ (field line).toList) rest

def dataName : Bytes := bytes "data"

/-- The values of the data fields of an event. -/
def dataLines (fields : List (Bytes × Bytes)) : List Bytes :=
  (fields.filter fun f => f.1 = dataName).map Prod.snd

/-- The data of an event: its data lines, joined by line feeds. -/
def join (ds : List Bytes) : Bytes := List.intercalate [0x0A] ds

def events (text : Bytes) : List (List (Bytes × Bytes)) :=
  (blocks [] (lines text)).filter fun fields => dataLines fields ≠ []

/-- What a client is told by a stream, event by event. -/
def payloads (text : Bytes) : List Bytes :=
  (events text).map fun fields => join (dataLines fields)

end Sse
