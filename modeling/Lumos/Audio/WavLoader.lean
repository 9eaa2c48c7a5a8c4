import Lumos.Library.Bytes
import Lumos.Library.Loop

/-!
# Loading WAV files

`LoadWav` goes from chunk to chunk and looks at the state of the stream at the head of its
loop only. What a read has not stored stays as it was: zero in the format, the size of the
chunk before, and whatever the array for the name of a chunk holds.
-/
namespace Lumos.WavLoader

open Bytes Loop

/-- `unsigned long` has four bytes or eight. -/
inductive ULong where
  | four | eight
  deriving DecidableEq

def ULong.size : ULong → Nat
  | .four => 4
  | .eight => 8

/-! ## Input streams -/

structure Stream where
  pos : Nat
  eof : Bool
  fail : Bool

/-- `read`, with the bytes it stores. -/
def read (file : List UInt8) (stream : Stream) (n : Nat) : List UInt8 × Stream :=
  if stream.eof || stream.fail then ([], { stream with fail := true })
  else
    let bytes := slice file stream.pos n
    if bytes.length < n then (bytes, ⟨stream.pos + bytes.length, true, true⟩)
    else (bytes, { stream with pos := stream.pos + n })

/-- `seekg` from the current position, which clears the end-of-file bit first. -/
def seekg (stream : Stream) (offset : Nat) : Stream :=
  if stream.fail then { stream with eof := false } else { stream with pos := stream.pos + offset, eof := false }

/-- Bytes stored over those that were there. -/
def overwrite (bytes old : List UInt8) : List UInt8 := bytes ++ old.drop bytes.length

/-! ## The code -/

def riffName : List UInt8 := [0x52, 0x49, 0x46, 0x46]

def fmtName : List UInt8 := [0x66, 0x6d, 0x74, 0x20]

def dataName : List UInt8 := [0x64, 0x61, 0x74, 0x61]

/-- The fields of `FMTCHUNK` that are used; between them are `bps` and `balign`. -/
structure FmtChunk where
  channels : Nat
  srate : Nat
  samp : Nat

/-- `sizeof(FMTCHUNK)` -/
def ULong.fmtSize (long : ULong) : Nat := 4 * long.size

def FmtChunk.ofBytes (long : ULong) (bytes : List UInt8) : FmtChunk where
  channels := littleEndian (slice bytes 2 2)
  srate := littleEndian (slice bytes long.size long.size)
  samp := littleEndian (slice bytes (3 * long.size + 2) 2)

structure AudioData where
  data : List UInt8
  /-- Before it is made a float. -/
  freqRate : Nat
  bitRate : Nat
  size : Nat
  channels : Nat

/-- `AudioData()` -/
def AudioData.empty : AudioData := ⟨[], 0, 0, 0, 0⟩

/-- The cast of a `short` to `uint32_t`. -/
def shortToUInt32 (n : Nat) : Nat := if n < 0x8000 then n else n + 0xffff0000

def AudioData.setFormat (data : AudioData) (fmt : FmtChunk) : AudioData :=
  { data with bitRate := shortToUInt32 fmt.samp, freqRate := fmt.srate, channels := shortToUInt32 fmt.channels }

/-- The name and the size of the next chunk, where `chunk` is what is in the array at first. -/
def loadWAVChunkInfo (file chunk : List UInt8) (stream : Stream) (size : List UInt8) :
    List UInt8 × List UInt8 × Stream :=
  let (name, stream) := read file stream 4
  let (bytes, stream) := read file stream 4
  (overwrite name chunk, overwrite bytes size, stream)

/-- The variables of the loop, and how often `LoadWAVChunkInfo` has been called. -/
structure State where
  stream : Stream
  chunkSize : List UInt8
  data : AudioData
  calls : Nat

variable (long : ULong) (stale : Nat → Vector UInt8 4) (file : List UInt8)

/-- One turn of the loop. -/
def body : Body State AudioData := fun s =>
  if s.stream.eof then some (.inr s.data)
  else
    let (chunkName, chunkSize, stream) := loadWAVChunkInfo file (stale s.calls).toList s.stream s.chunkSize
    if chunkName = riffName then some (.inl ⟨seekg stream 4, chunkSize, s.data, s.calls + 1⟩)
    else if chunkName = fmtName then
      let (bytes, stream) := read file stream long.fmtSize
      let fmt := FmtChunk.ofBytes long (overwrite bytes (List.replicate long.fmtSize 0))
      some (.inl ⟨stream, chunkSize, s.data.setFormat fmt, s.calls + 1⟩)
    else if chunkName = dataName then
      let size := littleEndian chunkSize
      let (bytes, _) := read file stream size
      some (.inr { s.data with size := size, data := bytes })
    else some (.inl ⟨seekg stream (littleEndian chunkSize), chunkSize, s.data, s.calls + 1⟩)

def init : State := ⟨⟨0, false, false⟩, List.replicate 4 0, .empty, 0⟩

/-- The call of `LoadWav` for the file ends with this result. -/
def LoadsAs (data : AudioData) : Prop := Returns (body long stale file) init data

/-! ## The files -/

structure Chunk where
  name : List UInt8
  content : List UInt8
  four : name.length = 4
  fits : content.length < 2 ^ 32

/-- With a byte of padding after an odd number of bytes. -/
def Chunk.bytes (chunk : Chunk) : List UInt8 :=
  chunk.name ++ toBytes 4 chunk.content.length ++ chunk.content ++ (if chunk.content.length % 2 = 1 then [0] else [])

def waveName : List UInt8 := [0x57, 0x41, 0x56, 0x45]

/-- What comes before the data chunk. -/
structure Head where
  riffSize : Nat
  before : List Chunk
  fmt : List UInt8
  after : List Chunk
  wide : 16 ≤ fmt.length
  fits : fmt.length < 2 ^ 32
  others : ∀ chunk ∈ before ++ after, chunk.name ≠ riffName ∧ chunk.name ≠ fmtName ∧ chunk.name ≠ dataName

def Head.fmtChunk (head : Head) : Chunk := ⟨fmtName, head.fmt, rfl, head.fits⟩

def Head.bytes (head : Head) : List UInt8 :=
  riffName ++ toBytes 4 head.riffSize ++ waveName ++
    (head.before ++ head.fmtChunk :: head.after).flatMap Chunk.bytes

/-- The data chunk, and what follows its data. -/
def Head.contents (head : Head) (data rest : List UInt8) : List UInt8 :=
  head.bytes ++ (dataName ++ toBytes 4 data.length ++ data ++ rest)

/-- What the file says. -/
def Head.audio (head : Head) (data : List UInt8) : AudioData where
  data := data
  freqRate := littleEndian (slice head.fmt 4 4)
  bitRate := littleEndian (slice head.fmt 14 2)
  size := data.length
  channels := littleEndian (slice head.fmt 2 2)

/-! ## From header to header -/

/-- From one header to the one `LoadWav` looks at next, with where the last format was. -/
inductive Next : Nat × Option Nat → Nat × Option Nat → Prop where
  | riff {p q} (name : slice file p 4 = riffName) (inside : p + 8 ≤ file.length) : Next (p, q) (p + 12, q)
  | fmt {p q} (name : slice file p 4 = fmtName) (inside : p + 8 + long.fmtSize ≤ file.length) :
      Next (p, q) (p + 8 + long.fmtSize, some (p + 8))
  | other {p q} (name : slice file p 4 ≠ riffName ∧ slice file p 4 ≠ fmtName ∧ slice file p 4 ≠ dataName)
      (inside : p + 8 ≤ file.length) : Next (p, q) (p + 8 + littleEndian (slice file (p + 4) 4), q)

/-- The headers are looked at one after the other, from the first on. -/
def Walk : Nat × Option Nat → Prop := Relation.ReflTransGen (Next long file) (0, none)

/-- A data chunk, or a format that is cut off. -/
def Stops (p : Nat) : Prop :=
  slice file p 4 = dataName ∨ slice file p 4 = fmtName ∧ file.length < p + 8 + long.fmtSize

/-- The format at `q`, if there has been one. -/
def formatAt : Option Nat → AudioData
  | none => .empty
  | some q => AudioData.empty.setFormat (.ofBytes long (slice file q long.fmtSize))

/-- The headers lead exactly to the end of what is before the data chunk, and the last format
passed is read as the file says. -/
def Head.InStep (head : Head) : Prop :=
  ∃ q, Walk long head.bytes (head.bytes.length, q) ∧ formatAt long head.bytes q = head.audio []

end Lumos.WavLoader
