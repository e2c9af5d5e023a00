import ReleaseRadar.Domain

/-!
# The calendar feed

`backend/internal/calendar/ics.go`: one `VEVENT` per rollout and stage, in lines
folded at 75 octets. Text is composed as strings and folded as UTF-8 bytes, which
is how the source sees it.
-/

namespace ReleaseRadar.Calendar

/-! ## Dates -/

/-- Year, month and day of a day counted from 1970-01-01, in the proleptic Gregorian
calendar. -/
def civil (days : Int) : Int × Int × Int :=
  -- days from 0000-03-01, so that a leap day ends its year
  let z := days + 719468
  let era := z.fdiv 146097
  let doe := z - era * 146097
  let yoe := (doe - doe / 1460 + doe / 36524 - doe / 146096) / 365
  let doy := doe - (365 * yoe + yoe / 4 - yoe / 100)
  let mp := (5 * doy + 2) / 153
  let day := doy - (153 * mp + 2) / 5 + 1
  let month := if mp < 10 then mp + 3 else mp - 9
  (yoe + era * 400 + (if month ≤ 2 then 1 else 0), month, day)

/-- Decimal, padded with zeros to `width`. -/
def padded (width : Nat) (n : Int) : String :=
  let digits := toString n.natAbs
  let zeros := String.ofList (List.replicate (width - digits.length) '0')
  (if n < 0 then "-" else "") ++ zeros ++ digits

/-- `t.Format("20060102T150405Z")`, `t` in UTC. -/
def iso (t : Int) : String :=
  let seconds := t.fdiv second
  let days := seconds.fdiv 86400
  let time := seconds - days * 86400
  let (year, month, day) := civil days
  padded 4 year ++ padded 2 month ++ padded 2 day ++ "T" ++ padded 2 (time / 3600)
    ++ padded 2 (time / 60 % 60) ++ padded 2 (time % 60) ++ "Z"

example : iso 0 = "19700101T000000Z" := by decide
example : iso (951827696 * second) = "20000229T123456Z" := by decide

/-! ## Text -/

def statusICS (status : String) : String :=
  match status with
  | "done" => "CONFIRMED"
  | "blocked" => "CANCELLED"
  | _ => "TENTATIVE"

/-- The replacer of `escape`: at each place the first pattern that matches. -/
def escapeChars : List Char → List Char
  | [] => []
  | '\\' :: cs => '\\' :: '\\' :: escapeChars cs
  | '\r' :: '\n' :: cs => '\\' :: 'n' :: escapeChars cs
  | '\r' :: cs => '\\' :: 'n' :: escapeChars cs
  | '\n' :: cs => '\\' :: 'n' :: escapeChars cs
  | ',' :: cs => '\\' :: ',' :: escapeChars cs
  | ';' :: cs => '\\' :: ';' :: escapeChars cs
  | c :: cs => c :: escapeChars cs

def escape (s : String) : String := String.ofList (escapeChars s.toList)

/-! ## Folding -/

/-- `[]byte(s)`. -/
def utf8 (s : String) : List UInt8 := s.toList.flatMap String.utf8EncodeChar

/-- `utf8.RuneStart`. -/
def runeStart (b : UInt8) : Bool := b &&& 0xC0 != 0x80

/-- `for cut > 0 && !utf8.RuneStart(s[cut]) { cut-- }`. -/
def backUp (s : List UInt8) : Nat → Nat
  | 0 => 0
  | cut + 1 => if runeStart (s.getD (cut + 1) 0) then cut + 1 else backUp s cut

/-- Where `splitLine` cuts a string longer than `n`. -/
def cutAt (s : List UInt8) (n : Nat) : Nat := if backUp s n = 0 then n else backUp s n

/-- The loop of `splitLine`. Each round takes at least one octet when `n` is positive,
so the length of the string is fuel enough. -/
def splitLoop (n : Nat) : Nat → List UInt8 → List (List UInt8)
  | 0, s => [s]
  | fuel + 1, s =>
    if s.length ≤ n then [s]
    else s.take (cutAt s n) :: splitLoop n fuel (s.drop (cutAt s n))

def splitLine (s : List UInt8) (n : Nat) : List (List UInt8) := splitLoop n s.length s

def crlf : List UInt8 := utf8 "\r\n"

/-- `folder.Line`, of a string that need not be text. -/
def lineOctets (s : List UInt8) : List UInt8 :=
  match splitLine s 73 with
  | [] => []
  | first :: rest => first ++ crlf ++ rest.flatMap fun chunk => utf8 " " ++ chunk ++ crlf

/-- `folder.Line`. -/
def line (s : String) : List UInt8 := lineOctets (utf8 s)

/-! ## The feed -/

/-- The end of a stage's event. -/
def endOf (st : RolloutStage) : Int :=
  let end_ := st.startAt + st.duration
  if end_ ≤ st.startAt then st.startAt + hour else end_

/-- The lines of one event. -/
def event (now : Int) (r : Rollout) (st : RolloutStage) (i : Nat) : List String :=
  ["BEGIN:VEVENT",
    "UID:" ++ r.id ++ "-" ++ toString i ++ "@releaseradar",
    "DTSTAMP:" ++ iso now,
    "DTSTART:" ++ iso st.startAt,
    "DTEND:" ++ iso (endOf st),
    "SUMMARY:" ++ escape ("[" ++ st.env ++ "] " ++ r.productId ++ " — " ++ r.title)]
  ++ (if r.descExt = "" then [] else ["DESCRIPTION:" ++ escape r.descExt])
  ++ ["STATUS:" ++ statusICS st.status, "END:VEVENT"]

def events (now : Int) (r : Rollout) : List String :=
  r.stages.items.zipIdx.flatMap fun st => event now r st.1 st.2

/-- The lines `WriteICS` writes. -/
def feed (now : Int) (rollouts : List Rollout) : List String :=
  ["BEGIN:VCALENDAR", "VERSION:2.0", "PRODID:-//ReleaseRadar//EN", "CALSCALE:GREGORIAN",
    "METHOD:PUBLISH", "X-WR-CALNAME:ReleaseRadar Rollouts", "X-WR-TIMEZONE:UTC"]
  ++ rollouts.flatMap (events now)
  ++ ["END:VCALENDAR"]

/-- `WriteICS`, into a writer that takes everything. -/
def writeICS (now : Int) (rollouts : List Rollout) : List UInt8 := (feed now rollouts).flatMap line

end ReleaseRadar.Calendar
