/-
**Lines of a compressed server link.**

`unzip_packet` of `s_zip.c` and the branches of `dopacket` for compressed links. The decompressor is
a parameter.

* `Zlib`, `Lossless` — `inflate`, and what it is known to do with what it is given.
* `ZipLink` — a link with its decompressor and the output kept for the next round.
* `unzip_packet`, `dopacket` — one read. A full output buffer makes `unzip_packet` look at the byte
  behind it and `dopacket` go on writing there.
* `receive_unzipped` — **a compressed link hands over the lines of the plaintext**, and reads nothing
  outside its buffers, exactly when no call of `inflate` leaves input behind and the output held back
  at the end closes no line.
-/

import PtlinkIrcd.Net.ServerLink

namespace PtlinkIrcd

open Lib

def ZIP_MAXIMUM : Nat := 8192
def ZIP_BUFFER_SIZE : Nat := ZIP_MAXIMUM + READBUF_SIZE
def UNZIP_BUFFER_SIZE : Nat := 10 * ZIP_BUFFER_SIZE

/-! ### The decompressor -/

/-- What `inflate` returns, as far as the callers tell the values apart. -/
inductive ZRet
  | ok
  | bufError
  | dataError
  | other
  deriving DecidableEq

/-- The outcome of a call of `inflate`: the stream after it, the output and the input that is left. -/
structure Inflated (σ : Type) where
  r : ZRet
  stream : σ
  out : Text
  left : Text

/-- `inflate(zin, Z_NO_FLUSH)` on the input at `next_in`, with so much room for output. -/
structure Zlib (σ : Type) where
  inflate : σ → Text → Nat → Inflated σ

/-- A decompressor that gives back what was compressed. After the bytes `fed` it knows the plaintext
`plain fed`, of which it has given out the first `given` characters; it stops when the input is used
up or the room is. -/
structure Lossless {σ : Type} (z : Zlib σ) (start : σ) where
  plain : Text → Text
  fed : σ → Text
  given : σ → Nat
  plain_nil : plain [] = []
  plain_append : ∀ t more, ∃ further, plain (t ++ more) = plain t ++ further
  fed_start : fed start = []
  given_start : given start = 0
  used : ∀ s input room, ∃ taken, input = taken ++ (z.inflate s input room).left ∧
    fed (z.inflate s input room).stream = fed s ++ taken ∧
    (z.inflate s input room).r = if taken = [] ∧ (z.inflate s input room).out = [] then .bufError
      else .ok
  out : ∀ s input room, (z.inflate s input room).out =
    ((plain (fed (z.inflate s input room).stream)).drop (given s)).take room
  given_after : ∀ s input room,
    given (z.inflate s input room).stream = given s + (z.inflate s input room).out.length
  full : ∀ s input room, (z.inflate s input room).left ≠ [] →
    (z.inflate s input room).out.length = room

/-! ### The link -/

/-- What `parse` does to the connection, by the lines handed over so far: it may close it, and the
line that makes it a server may switch it to compressed input. -/
structure Parser where
  exits : List Text → Bool
  zips : List Text → Bool

/-- A directly linked server whose input may be compressed. -/
structure ZipLink (σ : Type) where
  /-- The line in the buffer, the lines handed over and the counters. -/
  link : ServerLink
  /-- What stands in `buffer` from `ch1` on. -/
  stale : Text
  /-- `ch1` points behind the output in `unzipbuf`. -/
  astray : Bool
  /-- `FLAGS2_ZIP`. -/
  zip : Bool
  /-- `FLAGS2_ZIPFIRST`. -/
  zipFirst : Bool
  /-- `CAP_ZIP`. -/
  capZip : Bool
  /-- `zip->in`, and its input at `next_in`. -/
  stream : σ
  next_in : Text
  /-- The first `zip->incount` bytes of `zip->inbuf`. -/
  inbuf : Text
  /-- Something outside of `unzipbuf` was read. -/
  outside : Bool

namespace ZipLink

variable {σ : Type}

/-- A link whose input is compressed from now on. -/
def fresh (me : Traffic) (start : σ) (zipFirst : Bool) : ZipLink σ :=
  { link := .fresh me, stale := List.replicate CLIENT_BUFSIZE (Char.ofNat 0), astray := false
    zip := true, zipFirst := zipFirst, capZip := true, stream := start, next_in := [], inbuf := []
    outside := false }

/-- The branch for a full output buffer. `beyond` is the byte behind it, at `next_out[0]`: it is
taken for the next byte of output, and the scan for the end of the last line starts there. -/
def overflow (beyond : Char) (l : ZipLink σ) (unzipbuf : Text) : ZipLink σ × Option Text :=
  let l := { l with outside := true }
  if isEol beyond then ({ l with inbuf := ['\n'] }, some unzipbuf)
  else
    let chunk := (unzipbuf.reverse.takeWhile fun c => !isEol c).reverse
    -- the end of a line stands before the chunk, or nothing does
    if chunk.length + 1 = unzipbuf.length ∨ unzipbuf.length ≤ chunk.length then
      ({ l with inbuf := [] }, none)
    else ({ l with inbuf := chunk }, some (unzipbuf.take (unzipbuf.length - (chunk.length + 1))))

/-- The second half of `unzip_packet`: what becomes of the outcome of `inflate`, which had `room`
behind the text in `front`. -/
def inflated (beyond : Char) (l : ZipLink σ) (buffer : Option Text) (length : Nat) (front : Text)
    (room : Nat) (i : Inflated σ) : ZipLink σ × Option Text :=
  let l := { l with stream := i.stream, next_in := i.left, inbuf := [] }
  match i.r with
  | .ok =>
    if i.left ≠ [] then
      if i.out.length = room then l.overflow beyond (front ++ i.out) else (l, none)
    else (l, some (front ++ i.out))
  | .bufError =>
    if i.out.length = room then (l, none)
    -- a null pointer with the old length
    else ({ l with outside := l.outside || 0 < length }, some [])
  | .dataError =>
    let text := buffer.getD []
    if l.capZip && "ERROR ".toList.isPrefixOf text then
      ({ l with zip := false, capZip := false }, some text)
    else (l, none)
  | .other => (l, none)

/-- `unzip_packet`: the uncompressed data, `none` for a length of -1. Without a buffer it goes on
with the input that is left. -/
def unzip_packet (z : Zlib σ) (beyond : Char) (l : ZipLink σ) (buffer : Option Text) (length : Nat) :
    ZipLink σ × Option Text :=
  if l.inbuf = [] ∧ buffer = none then (l, none)
  else
    let input := if l.inbuf = [] then buffer.getD [] else l.next_in
    let room := UNZIP_BUFFER_SIZE - l.inbuf.length
    l.inflated beyond buffer length l.inbuf room (z.inflate l.stream input room)

/-- The content of the buffer up to its first null. -/
def bufferText (l : ZipLink σ) : Text := (l.link.buffer ++ l.stale).takeWhile (· ≠ Char.ofNat 0)

/-- What a line that was handed over does to the flags; a link is switched once. -/
def parsed (p : Parser) (l : ZipLink σ) : ZipLink σ :=
  let zips := !l.zip && p.zips l.link.handed
  { l with zip := l.zip || zips, zipFirst := l.zipFirst || zips }

def scan (p : Parser) (l : ZipLink σ) (g : Char) : ZipLink σ :=
  if l.astray then
    if isEol g then
      let handed := l.link.handed ++ [l.bufferText]
      parsed p
        { l with
          astray := false
          stale := l.link.buffer ++ l.stale
          link := ⟨[], handed, p.exits handed, l.link.cptr.line, l.link.me.line⟩ }
    else l
  else
    let link := l.link.scan p.exits g
    if isEol g then
      if l.link.buffer = [] then { l with stale := g :: l.stale.tail }
      else
        parsed p { l with link := link, stale := l.link.buffer ++ Char.ofNat 0 :: l.stale.tail }
    else if l.link.buffer.length < CLIENT_BUFSIZE - 1 then
      { l with link := link, stale := l.stale.tail }
    else { l with link := link, stale := [g] }

/-- The loop over uncompressed data, until a line closes the connection or, unless it is `zipped`
already, switches it to compressed input with data left. -/
def scanAll (p : Parser) (zipped : Bool) : ZipLink σ → Text → ZipLink σ × Option Text
  | l, [] => (l, none)
  | l, g :: rest =>
    let handed := isEol g && (l.astray || l.link.buffer ≠ [])
    let l := l.scan p g
    if l.link.exited then (l, none)
    else if handed && l.zip && !zipped && rest ≠ [] then (l, some rest)
    else scanAll p zipped l rest

def exit (l : ZipLink σ) : ZipLink σ := { l with link := { l.link with exited := true } }

/-- The outer loop: the data, and what is left of the compressed input, for as many rounds as the
fuel allows. -/
def rounds (z : Zlib σ) (p : Parser) (beyond : Char) : Nat → ZipLink σ → Text → ZipLink σ
  | fuel, l, data =>
    let l := (scanAll p true l data).1
    if l.link.exited then l
    else if l.zip && l.inbuf ≠ [] then
      match fuel with
      | 0 => l
      | fuel + 1 =>
        match l.unzip_packet z beyond none 1 with
        | (l, none) => l.exit
        -- `ch1 = ch2 + length`
        | (l, some data) => rounds z p beyond fuel { l with astray := true } data
    else l

/-- An end of a line at the start of compressed input is skipped. -/
def skipEol (data : Text) : Text := if data.head?.any isEol then data.tail else data

/-- Compressed input of a packet, from the first call of `unzip_packet` on. -/
def unzipAll (z : Zlib σ) (p : Parser) (beyond : Char) (fuel : Nat) (l : ZipLink σ) (input : Text) :
    ZipLink σ :=
  match l.unzip_packet z beyond (some input) input.length with
  | (l, none) => l.exit
  | (l, some data) => rounds z p beyond fuel l data

def dopacket (z : Zlib σ) (p : Parser) (beyond : Char) (fuel : Nat) (l : ZipLink σ) (packet : Text) :
    ZipLink σ :=
  let link := { l.link with
    cptr := l.link.cptr.packet packet.length
    me := l.link.me.packet packet.length }
  let data := if l.zipFirst then skipEol packet else packet
  let l := { l with link := link, zipFirst := false }
  if l.zip then unzipAll z p beyond fuel { l with inbuf := [] } data
  else
    match scanAll p false l data with
    | (l, none) => l
    | (l, some rest) => unzipAll z p beyond fuel { l with zipFirst := false } (skipEol rest)

/-- The link after some reads; nothing is read from a connection that was closed. -/
def receive (z : Zlib σ) (p : Parser) (beyond : Char) (fuel : Nat) (l : ZipLink σ)
    (reads : List Text) : ZipLink σ :=
  reads.foldl (fun l packet => if l.link.exited then l else l.dopacket z p beyond fuel packet) l

/-! ### What was read outside stays read -/

section Outside

variable {z : Zlib σ} {p : Parser} {beyond : Char}

theorem scan_outside (p : Parser) (l : ZipLink σ) (g : Char) : (l.scan p g).outside = l.outside := by
  unfold scan
  repeat' split
  all_goals rfl

theorem scanAll_outside (p : Parser) (zipped : Bool) (l : ZipLink σ) (data : Text) :
    (scanAll p zipped l data).1.outside = l.outside := by
  induction data generalizing l with
  | nil => rfl
  | cons g data ih =>
    unfold scanAll
    simp only []
    split
    · exact scan_outside p l g
    · split
      · exact scan_outside p l g
      · rw [ih, scan_outside]

theorem overflow_outside (beyond : Char) (l : ZipLink σ) (unzipbuf : Text) :
    (l.overflow beyond unzipbuf).1.outside = true := by
  unfold overflow
  simp only []
  split
  · rfl
  · split <;> rfl

theorem inflated_outside {l : ZipLink σ} (outside : l.outside = true) (buffer : Option Text)
    (length : Nat) (front : Text) (room : Nat) (i : Inflated σ) :
    (l.inflated beyond buffer length front room i).1.outside = true := by
  unfold inflated
  simp only []
  split
  · split
    · split
      · exact overflow_outside ..
      · exact outside
    · exact outside
  · split
    · exact outside
    · simp [outside]
  · split <;> exact outside
  · exact outside

theorem unzip_outside {l : ZipLink σ} (outside : l.outside = true) (buffer : Option Text)
    (length : Nat) : (l.unzip_packet z beyond buffer length).1.outside = true := by
  unfold unzip_packet
  split
  · exact outside
  · exact inflated_outside outside ..

theorem rounds_outside (fuel : Nat) {l : ZipLink σ} (outside : l.outside = true) (data : Text) :
    (rounds z p beyond fuel l data).outside = true := by
  induction fuel generalizing l data with
  | zero =>
    unfold rounds
    simp only []
    repeat' split
    all_goals exact (scanAll_outside ..).trans outside
  | succ fuel ih =>
    have scanned := (scanAll_outside p true l data).trans outside
    unfold rounds
    simp only []
    split
    · exact scanned
    · split
      · have unzipped : ((scanAll p true l data).1.unzip_packet z beyond none 1).1.outside = true :=
          unzip_outside scanned none 1
        split
        · rename_i after eq
          rw [eq] at unzipped
          exact unzipped
        · rename_i after more eq
          rw [eq] at unzipped
          refine ih ?_ more
          exact unzipped
      · exact scanned

theorem unzipAll_outside (fuel : Nat) {l : ZipLink σ} (outside : l.outside = true) (input : Text) :
    (unzipAll z p beyond fuel l input).outside = true := by
  have unzipped : (l.unzip_packet z beyond (some input) input.length).1.outside = true :=
    unzip_outside outside (some input) input.length
  unfold unzipAll
  split
  · rename_i after eq
    rw [eq] at unzipped
    exact unzipped
  · rename_i after data eq
    rw [eq] at unzipped
    exact rounds_outside fuel unzipped data

theorem dopacket_outside (fuel : Nat) {l : ZipLink σ} (outside : l.outside = true) (packet : Text) :
    (l.dopacket z p beyond fuel packet).outside = true := by
  unfold dopacket
  simp only []
  split
  · refine unzipAll_outside fuel ?_ _
    exact outside
  · split
    · rename_i after eq
      have scanned := congrArg (·.1.outside) eq
      simp only [] at scanned
      exact scanned.symm.trans ((scanAll_outside ..).trans outside)
    · rename_i after rest eq
      have scanned := congrArg (·.1.outside) eq
      simp only [] at scanned
      refine unzipAll_outside fuel ?_ _
      exact scanned.symm.trans ((scanAll_outside ..).trans outside)

theorem receive_outside (fuel : Nat) {l : ZipLink σ} (outside : l.outside = true)
    (reads : List Text) : (receive z p beyond fuel l reads).outside = true := by
  induction reads generalizing l with
  | nil => exact outside
  | cons packet reads ih =>
    refine ih ?_
    simp only []
    split
    · exact outside
    · exact dopacket_outside fuel outside packet

end Outside

/-! ### Input that is used up -/

section UsedUp

variable {z : Zlib σ} {p : Parser} {beyond : Char} {l : ZipLink σ}

/-- On a compressed link that did not go astray, a round is one of the uncompressed link. -/
theorem scan_eq (onTrack : l.astray = false) (zip : l.zip = true) (g : Char) :
    ∃ stale, l.scan p g = { l with link := l.link.scan p.exits g, stale := stale } := by
  unfold scan parsed
  rw [onTrack, if_neg Bool.false_ne_true]
  simp only []
  by_cases isEnd : isEol g = true
  · rw [if_pos isEnd]
    by_cases none_ : l.link.buffer = []
    · have skipped : l.link.scan p.exits g = l.link := by
        unfold ServerLink.scan
        rw [if_pos isEnd, if_pos none_]
      rw [if_pos none_, skipped]
      exact ⟨_, rfl⟩
    · rw [if_neg none_]
      simp only [zip, Bool.not_true, Bool.false_and, Bool.or_false]
      exact ⟨_, by rw [← zip, ← onTrack]⟩
  · rw [if_neg isEnd]
    split <;> exact ⟨_, by rw [← onTrack]⟩

theorem scanAll_eq (onTrack : l.astray = false) (zip : l.zip = true) (data : Text) :
    ∃ stale, (scanAll p true l data).1 =
      { l with link := l.link.scanAll p.exits data, stale := stale } := by
  induction data generalizing l with
  | nil => exact ⟨l.stale, rfl⟩
  | cons g data ih =>
    obtain ⟨stale, scanned⟩ := scan_eq (p := p) onTrack zip g
    unfold scanAll ServerLink.scanAll
    simp only [Bool.not_true, Bool.and_false, Bool.false_and, Bool.false_eq_true, if_false]
    rw [scanned]
    simp only []
    split
    · exact ⟨stale, rfl⟩
    · obtain ⟨stale', rest⟩ := ih (l := { l with link := l.link.scan p.exits g, stale := stale })
        onTrack zip
      exact ⟨stale', rest⟩

/-- A packet that `inflate` takes whole is scanned as its plaintext is. -/
theorem dopacket_eq (fuel : Nat) (onTrack : l.astray = false) (zip : l.zip = true)
    (first : l.zipFirst = false) {packet : Text}
    (r : let i := z.inflate l.stream packet UNZIP_BUFFER_SIZE
      i.r = .ok ∨ i.r = .bufError ∧ i.out = [] ∧ packet = [])
    (whole : (z.inflate l.stream packet UNZIP_BUFFER_SIZE).left = []) :
    ∃ stale, l.dopacket z p beyond fuel packet =
      { l with
        link := { l.link with
          cptr := l.link.cptr.packet packet.length
          me := l.link.me.packet packet.length }.scanAll p.exits
            (z.inflate l.stream packet UNZIP_BUFFER_SIZE).out
        stale := stale
        stream := (z.inflate l.stream packet UNZIP_BUFFER_SIZE).stream
        next_in := []
        inbuf := [] } := by
  obtain ⟨link, stale, astray, zipped, zipFirst, capZip, stream, next_in, inbuf, outside⟩ := l
  obtain rfl : astray = false := onTrack
  obtain rfl : zipped = true := zip
  obtain rfl : zipFirst = false := first
  have unzipped : (⟨⟨link.buffer, link.handed, link.exited, link.cptr.packet packet.length,
        link.me.packet packet.length⟩, stale, false, true, false, capZip, stream, next_in, [],
        outside⟩ : ZipLink σ).unzip_packet z beyond (some packet) packet.length =
      (⟨⟨link.buffer, link.handed, link.exited, link.cptr.packet packet.length,
        link.me.packet packet.length⟩, stale, false, true, false, capZip,
        (z.inflate stream packet UNZIP_BUFFER_SIZE).stream, [], [], outside⟩,
        some (z.inflate stream packet UNZIP_BUFFER_SIZE).out) := by
    unfold unzip_packet inflated
    simp only [reduceCtorEq, and_false, if_false, if_true, Option.getD_some, List.length_nil,
      Nat.sub_zero, List.nil_append]
    rcases r with ok | ⟨bufError, empty, rfl⟩
    · rw [ok, whole]
      simp
    · have room : ¬ ([] : Text).length = UNZIP_BUFFER_SIZE := by decide
      rw [bufError, empty, whole]
      simp only [if_neg room]
      simp
  obtain ⟨scanned, after⟩ := scanAll_eq (p := p) (l := (⟨⟨link.buffer, link.handed, link.exited,
    link.cptr.packet packet.length, link.me.packet packet.length⟩, stale, false, true, false,
    capZip, (z.inflate stream packet UNZIP_BUFFER_SIZE).stream, [], [], outside⟩ : ZipLink σ))
    rfl rfl (z.inflate stream packet UNZIP_BUFFER_SIZE).out
  refine ⟨scanned, ?_⟩
  unfold dopacket unzipAll
  simp only [Bool.false_eq_true, if_false, if_true]
  rw [unzipped]
  simp only []
  unfold rounds
  simp only [after]
  simp

/-- A packet that fills the output buffer before it is used up makes `unzip_packet` look behind it. -/
theorem dopacket_full (fuel : Nat) (zip : l.zip = true) (first : l.zipFirst = false) {packet : Text}
    (ok : (z.inflate l.stream packet UNZIP_BUFFER_SIZE).r = .ok)
    (left : (z.inflate l.stream packet UNZIP_BUFFER_SIZE).left ≠ [])
    (filled : (z.inflate l.stream packet UNZIP_BUFFER_SIZE).out.length = UNZIP_BUFFER_SIZE) :
    (l.dopacket z p beyond fuel packet).outside = true := by
  obtain ⟨link, stale, astray, zipped, zipFirst, capZip, stream, next_in, inbuf, outside⟩ := l
  obtain rfl : zipped = true := zip
  obtain rfl : zipFirst = false := first
  have unzipped : ((⟨⟨link.buffer, link.handed, link.exited, link.cptr.packet packet.length,
        link.me.packet packet.length⟩, stale, astray, true, false, capZip, stream, next_in, [],
        outside⟩ : ZipLink σ).unzip_packet z beyond (some packet) packet.length).1.outside = true := by
    unfold unzip_packet inflated
    simp only [reduceCtorEq, and_false, if_false, if_true, Option.getD_some, List.length_nil,
      Nat.sub_zero, List.nil_append]
    rw [ok]
    simp only [if_pos left, if_pos filled]
    exact overflow_outside ..
  unfold dopacket unzipAll
  simp only [Bool.false_eq_true, if_false, if_true]
  split
  · rename_i after eq
    exact (congrArg (·.1.outside) eq).symm.trans unzipped
  · rename_i after data eq
    exact rounds_outside fuel ((congrArg (·.1.outside) eq).symm.trans unzipped) data

theorem receive_exited (fuel : Nat) (exited : l.link.exited = true) (reads : List Text) :
    receive z p beyond fuel l reads = l := by
  induction reads with
  | nil => rfl
  | cons packet reads ih =>
    unfold receive at ih ⊢
    rw [List.foldl_cons, if_pos exited]
    exact ih

theorem receive_cons (fuel : Nat) (open_ : l.link.exited = false) (packet : Text)
    (reads : List Text) : receive z p beyond fuel l (packet :: reads) =
      receive z p beyond fuel (l.dopacket z p beyond fuel packet) reads := by
  unfold receive
  rw [List.foldl_cons, if_neg (by simp [open_])]

end UsedUp

end ZipLink

/-! ### Compressed input as plaintext -/

/-- Handing over more lines shows, unless the connection was closed before. -/
theorem serve_length_le (exits : List Text → Bool) (handed lines : List Text) :
    handed.length ≤ (serve exits handed lines).1.length := by
  induction lines generalizing handed with
  | nil => exact le_refl _
  | cons line lines ih =>
    rw [serve_cons]
    split
    · simp
    · exact le_trans (by simp) (ih (handed ++ [line]))

theorem serve_append_eq_iff {exits : List Text → Bool} {lines : List Text}
    (open_ : (serve exits [] lines).2 = false) (more : List Text) :
    (serve exits [] (lines ++ more)).1 = (serve exits [] lines).1 ↔ more = [] := by
  rw [serve_append, if_neg (by simp [open_])]
  cases more with
  | nil => exact iff_of_true rfl rfl
  | cons line more =>
    refine iff_of_false (fun same => ?_) (List.cons_ne_nil line more)
    have longer := serve_length_le exits ((serve exits [] lines).1 ++ [line]) more
    rw [List.length_append, List.length_singleton] at longer
    have count := congrArg List.length same
    rw [serve_cons] at count
    split at count
    · simp at count
    · omega

/-- Whether a line of a stream closes the connection. -/
def closes (exits : List Text → Bool) (stream : Text) : Bool :=
  (serve exits [] ((streamLines stream).map cut)).2

namespace Lossless

variable {σ : Type} {z : Zlib σ} {start : σ}

/-- The plaintext that the decompressor knows and has not given out. -/
def held (h : Lossless z start) (s : σ) : Text := (h.plain (h.fed s)).drop (h.given s)

/-- The reads fit: as long as no line has closed the connection, `inflate` takes all of its input
whenever it has the whole output buffer; and what it holds back after the last read closes no line.
`out` is the output so far. -/
def Fits (h : Lossless z start) (exits : List Text → Bool) : σ → Text → List Text → Prop
  | s, out, [] =>
    closes exits out = true ∨ (Lines.feed isEol ⟨[], streamRest out⟩ (h.held s)).closed = []
  | s, out, packet :: reads =>
    closes exits out = true ∨
      ((z.inflate s packet UNZIP_BUFFER_SIZE).left = [] ∧
        h.Fits exits (z.inflate s packet UNZIP_BUFFER_SIZE).stream
          (out ++ (z.inflate s packet UNZIP_BUFFER_SIZE).out) reads)

/-- What was given out so far. -/
structure Given (h : Lossless z start) (s : σ) (out : Text) : Prop where
  plain : h.plain (h.fed s) = out ++ h.held s
  given : h.given s = out.length

theorem given_start' (h : Lossless z start) : h.Given start [] where
  plain := by rw [held, h.given_start, List.drop_zero, List.nil_append]
  given := h.given_start

/-- **A call that takes all of its input.** -/
theorem Given.step {h : Lossless z start} {s : σ} {out : Text} (given : h.Given s out)
    {packet : Text} (whole : (z.inflate s packet UNZIP_BUFFER_SIZE).left = []) :
    h.Given (z.inflate s packet UNZIP_BUFFER_SIZE).stream
        (out ++ (z.inflate s packet UNZIP_BUFFER_SIZE).out) ∧
      h.fed (z.inflate s packet UNZIP_BUFFER_SIZE).stream = h.fed s ++ packet := by
  obtain ⟨taken, split_, fed, -⟩ := h.used s packet UNZIP_BUFFER_SIZE
  rw [whole, List.append_nil] at split_
  subst split_
  obtain ⟨further, grows⟩ := h.plain_append (h.fed s) packet
  have after := h.given_after s packet UNZIP_BUFFER_SIZE
  have output := h.out s packet UNZIP_BUFFER_SIZE
  rw [fed, grows, given.plain, given.given, List.append_assoc, List.drop_left] at output
  rw [given.given, ← List.length_append] at after
  have parts : h.plain (h.fed (z.inflate s packet UNZIP_BUFFER_SIZE).stream) =
      (out ++ (z.inflate s packet UNZIP_BUFFER_SIZE).out) ++
        (h.held s ++ further).drop UNZIP_BUFFER_SIZE := by
    rw [fed, grows, given.plain, output, List.append_assoc, List.append_assoc,
      List.take_append_drop]
  refine ⟨⟨?_, after⟩, fed⟩
  rw [held, after, parts, List.drop_left]

theorem ret_whole (h : Lossless z start) {s : σ} {packet : Text}
    (whole : (z.inflate s packet UNZIP_BUFFER_SIZE).left = []) :
    (z.inflate s packet UNZIP_BUFFER_SIZE).r = .ok ∨
      (z.inflate s packet UNZIP_BUFFER_SIZE).r = .bufError ∧
        (z.inflate s packet UNZIP_BUFFER_SIZE).out = [] ∧ packet = [] := by
  obtain ⟨taken, split_, -, r⟩ := h.used s packet UNZIP_BUFFER_SIZE
  rw [whole, List.append_nil] at split_
  subst split_
  by_cases nothing : packet = [] ∧ (z.inflate s packet UNZIP_BUFFER_SIZE).out = []
  · rw [if_pos nothing] at r
    exact .inr ⟨r, nothing.2, nothing.1⟩
  · rw [if_neg nothing] at r
    exact .inl r

theorem ret_full (h : Lossless z start) {s : σ} {packet : Text}
    (left : (z.inflate s packet UNZIP_BUFFER_SIZE).left ≠ []) :
    (z.inflate s packet UNZIP_BUFFER_SIZE).r = .ok ∧
      (z.inflate s packet UNZIP_BUFFER_SIZE).out.length = UNZIP_BUFFER_SIZE := by
  obtain ⟨taken, -, -, r⟩ := h.used s packet UNZIP_BUFFER_SIZE
  have filled := h.full s packet UNZIP_BUFFER_SIZE left
  have some_ : (z.inflate s packet UNZIP_BUFFER_SIZE).out ≠ [] := by
    intro none_
    rw [none_] at filled
    exact absurd filled (by decide)
  rw [if_neg fun both => some_ both.2] at r
  exact ⟨r, filled⟩

end Lossless

namespace ZipLink

variable {σ : Type} {z : Zlib σ} {start : σ} {p : Parser} {beyond : Char} {fuel : Nat}

theorem handed_eq (exits : List Text → Bool) (me : Traffic) (stream : Text) :
    (ServerLink.receive exits me [stream]).handed =
      (serve exits [] ((streamLines stream).map cut)).1 :=
  congrArg Prod.fst (ServerLink.receive_stream exits me stream [stream] (by simp)).1

/-- **A read that fills the buffer too early** makes the link read outside of it. -/
theorem receive_full (h : Lossless z start) {l : ZipLink σ} (zip : l.zip = true)
    (first : l.zipFirst = false) (open_ : l.link.exited = false) {packet : Text}
    (left : (z.inflate l.stream packet UNZIP_BUFFER_SIZE).left ≠ []) (reads : List Text) :
    (receive z p beyond fuel l (packet :: reads)).outside = true := by
  obtain ⟨ok, filled⟩ := h.ret_full left
  rw [receive_cons fuel open_]
  exact receive_outside fuel (dopacket_full fuel zip first ok left filled) reads

/-- **From any point on**, a link that has handed over the lines of the output so far goes on as the
uncompressed one exactly when the rest of the reads fit. -/
theorem receive_iff (h : Lossless z start) {l : ZipLink σ} {out : Text}
    (read : ServerLink.Reads p.exits out l.link) (given : h.Given l.stream out)
    (inside : l.outside = false) (onTrack : l.astray = false) (zip : l.zip = true)
    (first : l.zipFirst = false) (reads : List Text) :
    ((receive z p beyond fuel l reads).link.handed =
        (serve p.exits []
          ((streamLines (h.plain (h.fed l.stream ++ reads.flatten))).map cut)).1 ∧
      (receive z p beyond fuel l reads).outside = false) ↔ h.Fits p.exits l.stream out reads := by
  induction reads generalizing l out with
  | nil =>
    have served := read.served
    rw [ServerLink.feed_stream] at served
    have total : streamLines (h.plain (h.fed l.stream ++ [])) = streamLines out ++
        (Lines.feed isEol ⟨[], streamRest out⟩ (h.held l.stream)).closed := by
      have fed := ServerLink.feed_stream (out ++ h.held l.stream)
      rw [Lines.feed_append, ServerLink.feed_stream, Lines.feed_closed] at fed
      rw [List.append_nil, given.plain]
      exact (congrArg Lines.closed fed).symm
    show (l.link.handed = _ ∧ l.outside = false) ↔ _
    rw [List.flatten_nil, total, List.map_append, and_iff_left inside]
    unfold Lossless.Fits closes
    cases open_ : (serve p.exits [] ((streamLines out).map cut)).2 with
    | true =>
      rw [serve_append, if_pos open_, ← served]
      simp
    | false =>
      have same := serve_append_eq_iff open_
        ((Lines.feed isEol ⟨[], streamRest out⟩ (h.held l.stream)).closed.map cut)
      rw [show l.link.handed = (serve p.exits [] ((streamLines out).map cut)).1 from
        congrArg Prod.fst served, eq_comm, same]
      simp
  | cons packet reads ih =>
    have served := read.served
    rw [ServerLink.feed_stream] at served
    have isClosed : l.link.exited = closes p.exits out := congrArg Prod.snd served
    cases exited : l.link.exited with
    | true =>
      rw [receive_exited fuel exited]
      obtain ⟨further, grows⟩ := h.plain_append (h.fed l.stream) (packet :: reads).flatten
      have extended := (read.extend exited (h.held l.stream ++ further)).served
      rw [ServerLink.feed_stream, ← List.append_assoc, ← given.plain, ← grows] at extended
      refine iff_of_true ⟨congrArg Prod.fst extended, inside⟩ (.inl ?_)
      exact isClosed.symm.trans exited
    | false =>
      have stays : ¬ closes p.exits out = true := by
        rw [← isClosed, exited]
        exact Bool.false_ne_true
      rw [Lossless.Fits, or_iff_right stays]
      by_cases whole : (z.inflate l.stream packet UNZIP_BUFFER_SIZE).left = []
      · obtain ⟨given', fed⟩ := given.step whole
        obtain ⟨stale, after⟩ : ∃ stale, l.dopacket z p beyond fuel packet = _ :=
          dopacket_eq fuel onTrack zip first (h.ret_whole whole) whole
        rw [receive_cons fuel exited, and_iff_right whole, List.flatten_cons, ← List.append_assoc,
          ← fed, after]
        exact ih (read.scanAll exited _ _ _) given' inside onTrack zip first
      · have lost : (receive z p beyond fuel l (packet :: reads)).outside = true :=
          receive_full h zip first exited whole reads
        refine iff_of_false (fun both => ?_) fun fits => whole fits.1
        rw [both.2] at lost
        exact Bool.false_ne_true lost

theorem receive_first (l : ZipLink σ) (reads : List Text)
    (starts : ∀ c ∈ reads.flatten.head?, isEol c = false) (zipFirst : Bool) :
    (receive z p beyond fuel { l with zipFirst := zipFirst } reads).link.handed =
        (receive z p beyond fuel { l with zipFirst := false } reads).link.handed ∧
      (receive z p beyond fuel { l with zipFirst := zipFirst } reads).outside =
        (receive z p beyond fuel { l with zipFirst := false } reads).outside := by
  cases reads with
  | nil => exact ⟨rfl, rfl⟩
  | cons packet reads =>
    have kept : skipEol packet = packet := by
      unfold skipEol
      cases packet with
      | nil => rfl
      | cons c packet =>
        have plain := starts c (by simp)
        simp [plain]
    by_cases exited : l.link.exited = true
    · rw [receive_exited (l := { l with zipFirst := zipFirst }) fuel exited,
        receive_exited (l := { l with zipFirst := false }) fuel exited]
      exact ⟨rfl, rfl⟩
    · have same : { l with zipFirst := zipFirst }.dopacket z p beyond fuel packet =
          { l with zipFirst := false }.dopacket z p beyond fuel packet := by
        unfold dopacket
        cases zipFirst with
        | false => rfl
        | true => simp only [kept, if_true, Bool.false_eq_true, if_false]
      unfold receive
      simp only [List.foldl_cons, if_neg exited, same, and_self]

/-- **A compressed link against an uncompressed one.** It hands over the lines that an uncompressed
link would hand over of the plaintext, and reads nothing outside its buffer, exactly when the reads
fit: no call of `inflate` leaves input behind, and the output held back at the end closes no line. -/
theorem receive_unzipped (h : Lossless z start) (p : Parser) (beyond : Char) (fuel : Nat)
    (me : Traffic) (zipFirst : Bool) (reads : List Text)
    (starts : ∀ c ∈ reads.flatten.head?, isEol c = false) :
    let l := receive z p beyond fuel (fresh me start zipFirst) reads
    (l.link.handed = (ServerLink.receive p.exits me [h.plain reads.flatten]).handed ∧
      l.outside = false) ↔ h.Fits p.exits start [] reads := by
  have started : ServerLink.Reads p.exits [] (ServerLink.fresh me) := ⟨rfl, fun _ => rfl⟩
  have same : (_ ∧ (receive z p beyond fuel (fresh me start false) reads).outside = false) ↔ _ :=
    receive_iff h started h.given_start' rfl rfl rfl rfl reads
  obtain ⟨handed, outside⟩ : (receive z p beyond fuel (fresh me start zipFirst) reads).link.handed =
      _ ∧ _ := receive_first (fresh me start false) reads starts zipFirst
  rw [show (fresh me start false).stream = start from rfl, h.fed_start, List.nil_append] at same
  rw [handed_eq]
  refine Iff.trans ?_ same
  exact and_congr (handed ▸ Iff.rfl) (outside ▸ Iff.rfl)

end ZipLink

/-! ### A decompressor by its plaintext -/

/-- The decompressor that takes no more input than the room asks for. Its stream is the input taken
so far and the length of the output. -/
def Zlib.ofPlain (plain : Text → Text) : Zlib (Text × Nat) where
  inflate s input room :=
    let taken := ((List.range (input.length + 1)).find? fun n =>
      room ≤ (plain (s.1 ++ input.take n)).length - s.2).getD input.length
    let fed := s.1 ++ input.take taken
    let out := ((plain fed).drop s.2).take room
    ⟨if input.take taken = [] ∧ out = [] then .bufError else .ok, (fed, s.2 + out.length), out,
      input.drop taken⟩

def Lossless.ofPlain (plain : Text → Text) (plain_nil : plain [] = [])
    (plain_append : ∀ t more, ∃ further, plain (t ++ more) = plain t ++ further) :
    Lossless (Zlib.ofPlain plain) ([], 0) where
  plain := plain
  fed := Prod.fst
  given := Prod.snd
  plain_nil := plain_nil
  plain_append := plain_append
  fed_start := rfl
  given_start := rfl
  used s input room := ⟨_, (List.take_append_drop _ input).symm, rfl, rfl⟩
  out s input room := rfl
  given_after s input room := rfl
  full s input room left := by
    obtain ⟨taken, stops⟩ : ∃ taken, (List.range (input.length + 1)).find? (fun n =>
        decide (room ≤ (plain (s.1 ++ input.take n)).length - s.2)) = some taken := by
      cases stops : (List.range (input.length + 1)).find? fun n =>
          decide (room ≤ (plain (s.1 ++ input.take n)).length - s.2) with
      | some taken => exact ⟨taken, rfl⟩
      | none =>
        refine absurd ?_ left
        simp [Zlib.ofPlain, stops]
    have enough := of_decide_eq_true (List.find?_some (p := fun n =>
      decide (room ≤ (plain (s.1 ++ input.take n)).length - s.2)) stops)
    simp only [Zlib.ofPlain, stops, Option.getD_some, List.length_take, List.length_drop]
    exact Nat.min_eq_left enough

/-- Such a decompressor leaves input when a part of it makes enough output. -/
theorem Zlib.ofPlain_left (plain : Text → Text) (fed : Text) (given : Nat) {input : Text}
    {room n : Nat} (inside : n < input.length)
    (enough : given + room ≤ (plain (fed ++ input.take n)).length) :
    ((Zlib.ofPlain plain).inflate (fed, given) input room).left ≠ [] := by
  have passes : room ≤ (plain (fed ++ input.take n)).length - given := Nat.le_sub_of_add_le' enough
  cases stops : (List.range (input.length + 1)).find? fun n =>
      decide (room ≤ (plain (fed ++ input.take n)).length - given) with
  | none =>
    have fails := List.find?_eq_none.mp stops n (List.mem_range.mpr (Nat.lt_succ_of_lt inside))
    exact absurd (decide_eq_true passes) fails
  | some taken =>
    have early : taken ≤ n := by
      by_contra late
      have fails := (List.find?_range_eq_some.mp stops).2.2 n (Nat.lt_of_not_le late)
      rw [decide_eq_true passes] at fails
      exact absurd fails (by simp)
    simp only [Zlib.ofPlain, stops, Option.getD_some, ne_eq, List.drop_eq_nil_iff]
    omega

/-- The plaintext of input that consists of known blocks. -/
def blocksPlain : List (Text × Text) → Text → Text
  | [], _ => []
  | (block, text) :: more, t =>
    if block.isPrefixOf t then text ++ blocksPlain more (t.drop block.length) else []

theorem blocksPlain_append (blocks : List (Text × Text)) (t more : Text) :
    ∃ further, blocksPlain blocks (t ++ more) = blocksPlain blocks t ++ further := by
  induction blocks generalizing t with
  | nil => exact ⟨[], rfl⟩
  | cons first blocks ih =>
    obtain ⟨block, text⟩ := first
    unfold blocksPlain
    by_cases here : block.isPrefixOf t = true
    · obtain ⟨rest, rfl⟩ := List.isPrefixOf_iff_prefix.mp here
      obtain ⟨further, grows⟩ := ih rest
      have still : block.isPrefixOf (block ++ rest ++ more) = true :=
        List.isPrefixOf_iff_prefix.mpr ⟨rest ++ more, (List.append_assoc ..).symm⟩
      rw [if_pos here, if_pos still, List.append_assoc, List.drop_left, List.drop_left, grows]
      exact ⟨further, (List.append_assoc ..).symm⟩
    · rw [if_neg here]
      exact ⟨_, rfl⟩

/-- A decompressor that knows some blocks, none of them empty. -/
def blocksLossless (first : Text × Text) (blocks : List (Text × Text)) (some_ : first.1 ≠ []) :
    Lossless (Zlib.ofPlain (blocksPlain (first :: blocks))) ([], 0) :=
  .ofPlain _
    (by
      obtain ⟨block, text⟩ := first
      cases block with
      | nil => exact absurd rfl some_
      | cons c block => rfl)
    (blocksPlain_append _)

def bytes (values : List Nat) : Text := values.map Char.ofNat

/-- The line `PING :a` as `deflate` writes it. -/
def pingBlock : Text :=
  bytes [120, 156, 10, 240, 244, 115, 87, 176, 74, 228, 2, 0, 0, 0, 255, 255]

/-- A decompressor that knows this block. -/
def pingLossless : Lossless (Zlib.ofPlain (blocksPlain [(pingBlock, "PING :a\n".toList)])) ([], 0) :=
  blocksLossless (pingBlock, "PING :a\n".toList) [] (by decide)

def quiet : Parser := ⟨fun _ => false, fun _ => false⟩

namespace ZipLink

/-- A line in one read. -/
theorem receive_unzipped_sample :
    (receive (Zlib.ofPlain (blocksPlain [(pingBlock, "PING :a\n".toList)])) quiet 'x' 2
        (fresh ⟨0, 0, 0⟩ ([], 0) true) [pingBlock]).link.handed =
      (ServerLink.receive quiet.exits ⟨0, 0, 0⟩ [pingLossless.plain [pingBlock].flatten]).handed ∧
    (receive (Zlib.ofPlain (blocksPlain [(pingBlock, "PING :a\n".toList)])) quiet 'x' 2
        (fresh ⟨0, 0, 0⟩ ([], 0) true) [pingBlock]).outside = false := by
  have starts : ∀ c ∈ [pingBlock].flatten.head?, isEol c = false := by
    intro c first
    obtain rfl : Char.ofNat 120 = c := Option.some.inj first
    rfl
  exact (receive_unzipped pingLossless quiet 'x' 2 ⟨0, 0, 0⟩ true [pingBlock] starts).mpr
    (.inr ⟨by decide +kernel, .inr (by decide +kernel)⟩)

end ZipLink

def pings (count : Nat) : Text := (List.replicate count "PING :a\n".toList).flatten

theorem length_pings (count : Nat) : (pings count).length = 8 * count := by
  simp [pings, Nat.mul_comm]

/-- What `inflate` takes of 30721 lines, as `deflate` writes them, for 30720 lines of output. -/
def pingsBlock : Text :=
  bytes [120, 156, 236, 197, 49, 13, 0, 48, 8, 0, 176, 31, 21, 211, 129, 1, 194, 179, 96, 1, 255, 38,
    102, 99, 71, 251, 116, 250, 214, 201, 141, 177, 109, 219] ++
    (List.replicate 118 (bytes [182, 109, 219])).flatten ++ bytes [254, 236]

def lastBlock : Text := bytes [7, 0, 0, 255, 255]

def pingsPlain : Text → Text := blocksPlain [(pingsBlock, pings 30720), (lastBlock, pings 1)]

theorem pingsBlock_ne_nil : pingsBlock ≠ [] := by
  unfold pingsBlock
  exact List.append_ne_nil_of_left_ne_nil (List.append_ne_nil_of_left_ne_nil (by decide) _) _

def pingsLossless : Lossless (Zlib.ofPlain pingsPlain) ([], 0) :=
  blocksLossless (pingsBlock, pings 30720) [(lastBlock, pings 1)] pingsBlock_ne_nil

namespace ZipLink

theorem fresh_stream {σ : Type} (me : Traffic) (start : σ) (zipFirst : Bool) :
    (fresh me start zipFirst).stream = start := rfl

/-- A read of 395 bytes with one line more than the output buffer holds. -/
theorem not_receive_unzipped :
    ¬ ((receive (Zlib.ofPlain pingsPlain) quiet 'x' 2 (fresh ⟨0, 0, 0⟩ ([], 0) false)
        [pingsBlock ++ lastBlock]).link.handed = (ServerLink.receive quiet.exits ⟨0, 0, 0⟩
          [pingsLossless.plain [pingsBlock ++ lastBlock].flatten]).handed ∧
      (receive (Zlib.ofPlain pingsPlain) quiet 'x' 2 (fresh ⟨0, 0, 0⟩ ([], 0) false)
        [pingsBlock ++ lastBlock]).outside = false) := by
  have taken : (pingsBlock ++ lastBlock).take pingsBlock.length = pingsBlock := List.take_left
  have enough : 0 + UNZIP_BUFFER_SIZE ≤
      (pingsPlain ([] ++ (pingsBlock ++ lastBlock).take pingsBlock.length)).length := by
    have known : pingsBlock.isPrefixOf pingsBlock = true :=
      List.isPrefixOf_iff_prefix.mpr (List.prefix_refl _)
    rw [taken, List.nil_append, pingsPlain, blocksPlain, if_pos known, List.length_append,
      length_pings]
    unfold UNZIP_BUFFER_SIZE ZIP_BUFFER_SIZE ZIP_MAXIMUM READBUF_SIZE
    omega
  have inside : pingsBlock.length < (pingsBlock ++ lastBlock).length := by
    rw [List.length_append]
    exact Nat.lt_add_of_pos_right (by decide)
  have full : (receive (Zlib.ofPlain pingsPlain) quiet 'x' 2 (fresh ⟨0, 0, 0⟩ ([], 0) false)
      [pingsBlock ++ lastBlock]).outside = true := by
    apply receive_full pingsLossless rfl rfl rfl
    rw [fresh_stream]
    exact Zlib.ofPlain_left pingsPlain [] 0 inside enough
  intro both
  rw [full] at both
  exact absurd both.2 (by simp)

end ZipLink

end PtlinkIrcd
