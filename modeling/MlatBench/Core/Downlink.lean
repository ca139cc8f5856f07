import MlatBench.Core.Uplink

/-!
# The Downlink Reader

`mlatc` reads the lines of a server one by one, in the selection of
`server_session`'s loop. In plain mode `next_line` is `read_until` into a new
line, over again after a blank one. In framed mode it is `read_exact` into a new
length and a new frame; the frame's lines go into a queue, which is emptied
first. What a call has taken from the stream is in its own variables, and when
another branch wins the selection the call is dropped with them.

A call runs when it is polled, and takes what has arrived. The decompressor is a
parameter: what it makes of a frame after the frames before it.

## Main definitions

* `Downlink.nextLine`: The call runs.
* `Downlink.lines`: Call after call, none of them dropped.
* `SelectLoop`, `SelectLoop.step`: The loop, as far as the downlink goes.
-/

namespace MlatBench

namespace Client

open Library Server

/-- ASCII white space. -/
def isAsciiWhitespace (b : UInt8) : Bool :=
  b = 0x20 ∨ b = 0x09 ∨ b = newline ∨ b = 0x0c ∨ b = 0x0d

/-- What a call comes to. -/
inductive Call where
  | pending
  | line (l : List UInt8)
  -- There are no more lines.
  | closed
  | failed
deriving DecidableEq

/-- The reader: what has arrived and is not taken, what the call has taken, the
    lines or frames that were read, and the queue. -/
structure Downlink where
  framed : Bool
  avail : List UInt8
  eof : Bool
  taken : List UInt8
  read : List (List UInt8)
  queue : List (List UInt8)
deriving DecidableEq

namespace Downlink

def new (framed : Bool) : Downlink :=
  { framed := framed, avail := [], eof := false, taken := [], read := [], queue := [] }

/-- Bytes are taken up to the end of a line that is not blank: what the call
    comes to, the lines that were read, what is taken of the next, and what is
    left. -/
def nextPlain (eof : Bool) : List UInt8 → List UInt8 →
    Call × List (List UInt8) × List UInt8 × List UInt8
  -- Also a partial line: the server closed while it wrote.
  | line, [] => (if eof then .closed else .pending, [], line, [])
  | line, b :: rest =>
    if b = newline then
      if (line ++ [b]).all isAsciiWhitespace then
        let (c, read, line', rest') := nextPlain eof [] rest
        (c, (line ++ [b]) :: read, line', rest')
      else (.line (line ++ [b]), [line ++ [b]], [], rest)
    else nextPlain eof (line ++ [b]) rest

/-- The lines of a frame's bytes; only empty ones are left out. -/
def frameLines (bytes : List UInt8) : List (List UInt8) :=
  (bytes.splitOn newline).filter (· ≠ [])

variable (decode : List (List UInt8) → List UInt8 → Option (List UInt8))

/-- A frame is read, and its first line is the call's. -/
def nextFramed (d : Downlink) : Call × Downlink :=
  let (head, rest) := readExact 2 d.taken d.avail
  if head.length < 2 then
    (if d.eof then .closed else .pending, { d with taken := head, avail := rest })
  else
    let (frame, rest) := readExact (2 + frameLen head) head rest
    if frame.length < 2 + frameLen frame then
      (if d.eof then .failed else .pending, { d with taken := frame, avail := rest })
    else
      match decode d.read frame with
      | none => (.failed, { d with taken := frame, avail := rest })
      | some bytes =>
        let d := { d with taken := [], avail := rest, read := d.read ++ [frame] }
        match frameLines bytes with
        -- The same as at the end of the stream.
        | [] => (.closed, d)
        | l :: queue => (.line l, { d with queue := queue })

/-- The call runs. -/
def nextLine (d : Downlink) : Call × Downlink :=
  match d.queue with
  | l :: queue => (.line l, { d with queue := queue })
  | [] =>
    if d.framed then d.nextFramed decode
    else
      let (c, read, line, rest) := nextPlain d.eof d.taken d.avail
      (c, { d with avail := rest, taken := line, read := d.read ++ read })

/-- So many calls in a row, up to the first that gives no line. -/
def lines : Nat → Downlink → List (List UInt8) × Call
  | 0, _ => ([], .pending)
  | n + 1, d =>
    match d.nextLine decode with
    | (.line l, d) => (l :: (lines n d).1, (lines n d).2)
    | (c, _) => ([], c)

end Downlink

/-- Why the loop ended. -/
inductive SessionEnd where
  | closed
  | failed
  -- Another branch failed, or a line could not be used.
  | bailed
deriving DecidableEq

/-- The loop of `server_session`; `stream` is everything that arrived. -/
structure SelectLoop where
  down : Downlink
  stream : List UInt8
  returned : List (List UInt8)
  ended : Option SessionEnd
deriving DecidableEq

namespace SelectLoop

def start (framed : Bool) : SelectLoop :=
  { down := Downlink.new framed, stream := [], returned := [], ended := none }

inductive Event where
  | arrive (chunk : List UInt8)
  | close
  | poll
  -- Another branch wins the selection: a message to send, or a timer.
  | other
  | bail

def step (decode : List (List UInt8) → List UInt8 → Option (List UInt8)) (s : SelectLoop) :
    Event → SelectLoop
  | .arrive chunk =>
    if s.down.eof then s
    else { s with
      down := { s.down with avail := s.down.avail ++ chunk }, stream := s.stream ++ chunk }
  | .close => { s with down := { s.down with eof := true } }
  | .poll =>
    if s.ended.isSome then s
    else
      match s.down.nextLine decode with
      | (.pending, d) => { s with down := d }
      | (.line l, d) => { s with down := d, returned := s.returned ++ [l] }
      | (.closed, d) => { s with down := d, ended := some .closed }
      | (.failed, d) => { s with down := d, ended := some .failed }
  | .other => if s.ended.isSome then s else { s with down := { s.down with taken := [] } }
  | .bail => if s.ended.isSome then s else { s with ended := some .bailed }

end SelectLoop

end Client

end MlatBench
