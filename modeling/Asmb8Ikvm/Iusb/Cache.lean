import Asmb8Ikvm.Errors
import Asmb8Ikvm.Lib.OrderedDict

/-!
# The backing store of an image

The `Reader` protocol of `iusb.py` with its two implementations: `FileReader`,
which reads a file, and `Cache`, a window cache in front of another reader.

`LawfulReader` says what a reader is for: it stands for a byte string, and
`read_at` returns a part of that string. A valid cache in front of a lawful
reader is a lawful reader of the same byte string, whatever it has cached and
evicted before.
-/

namespace Asmb8Ikvm.Iusb

open Bytes

universe u

/-- The `Reader` protocol. Reading may change the reader, as it does for a cache. -/
class Reader (ρ : Type u) where
  size : ρ → ℕ
  readAt (n offset : ℤ) : ρ → Except Exn Bytes × ρ

/-- `FileReader` over a file with the given content. -/
structure FileReader where
  content : Bytes
deriving DecidableEq, Repr

instance : Reader FileReader where
  size file := file.content.length
  readAt n offset file :=
    if n ≤ 0 ∨ offset < 0 then (.ok [], file)
    else (.ok (slice file.content offset.toNat n.toNat), file)

/-- `write_at(data, offset)` of the writer of a cache: it acts on the backing the
reader reads and returns the number of bytes written. -/
abbrev Writer (ρ : Type u) :=
  Bytes → ℕ → ρ → Except Exn ℤ × ρ

/-- `iusb.Cache`; the most recently used window is the last entry. -/
structure Cache (ρ : Type u) where
  r : ρ
  w : Option (Writer ρ)
  windowSize : ℕ
  maxWindows : ℕ
  size : ℕ
  windows : OrderedDict ℕ Bytes
  hits : ℕ
  misses : ℕ
  fetched : ℕ

namespace Cache

variable {ρ : Type u} [Reader ρ]

/-- `Cache(reader, writer, window_size, max_windows)`. -/
def new (reader : ρ) (writer : Option (Writer ρ)) (windowSize maxWindows : ℕ) : Cache ρ where
  r := reader
  w := writer
  windowSize
  maxWindows
  size := Reader.size reader
  windows := .empty
  hits := 0
  misses := 0
  fetched := 0

/-- First critical section of `_window`: a resident window is moved to the end and
returned. -/
def lookup (start : ℕ) (cache : Cache ρ) : Option Bytes × Cache ρ :=
  match cache.windows.get? start with
  | some data =>
      (some data,
        { cache with windows := cache.windows.moveToEnd start, hits := cache.hits + 1 })
  | none => (none, { cache with misses := cache.misses + 1 })

/-- The backing read of `_window`, made outside the lock. -/
def fetch (start : ℕ) (cache : Cache ρ) : Except Exn Bytes × Cache ρ :=
  let want : ℤ :=
    if cache.size < start + cache.windowSize then cache.size - start else cache.windowSize
  let (result, r) := Reader.readAt want start cache.r
  (result, { cache with r })

/-- Second critical section of `_window`: an entry that has appeared meanwhile is
preferred, otherwise the fetched window is stored and old ones are evicted. -/
def install (start : ℕ) (data : Bytes) (cache : Cache ρ) : Bytes × Cache ρ :=
  match cache.windows.get? start with
  | some resident =>
      (resident,
        { cache with
          windows := cache.windows.moveToEnd start
          fetched := cache.fetched + data.length })
  | none =>
      (data,
        { cache with
          windows := (cache.windows.setLast start data).trim cache.maxWindows
          fetched := cache.fetched + data.length })

def window (start : ℕ) (cache : Cache ρ) : Except Exn Bytes × Cache ρ :=
  match cache.lookup start with
  | (some data, cache) => (.ok data, cache)
  | (none, cache) =>
      match cache.fetch start with
      | (.error exn, cache) => (.error exn, cache)
      | (.ok data, cache) =>
          let (data, cache) := cache.install start data
          (.ok data, cache)

/-- The loop of `Cache.read_at` over the windows between `pos` and `stop`. -/
def readLoop (stop pos : ℕ) (out : Bytes) (cache : Cache ρ) : Except Exn Bytes × Cache ρ :=
  if pos < stop then
    let winStart := pos - pos % cache.windowSize
    match cache.window winStart with
    | (.error exn, cache) => (.error exn, cache)
    | (.ok win, cache) =>
        let inWin := pos - winStart
        if win.length ≤ inWin then (.ok out, cache)
        else
          let chunkLen := min (win.length - inWin) (stop - pos)
          if chunkLen = 0 then (.ok out, cache)
          else readLoop stop (pos + chunkLen) (out ++ slice win inWin chunkLen) cache
  else (.ok out, cache)
termination_by stop - pos

def readAt (n offset : ℤ) (cache : Cache ρ) : Except Exn Bytes × Cache ρ :=
  if offset < 0 then (.error (.valueError "iusb: negative read offset"), cache)
  else if cache.size ≤ offset then (.ok [], cache)
  else cache.readLoop (min (offset + n) cache.size).toNat offset.toNat []

/-- The loop of `Cache._invalidate`. A window size of zero has made the caller's
`offset % window_size` fail before this point. -/
def popWindows (windowSize stop w : ℕ) (windows : OrderedDict ℕ Bytes) : OrderedDict ℕ Bytes :=
  if w < stop ∧ 0 < windowSize then
    popWindows windowSize stop (w + windowSize) (windows.pop w)
  else windows
termination_by stop - w

def invalidate (offset length : ℕ) (cache : Cache ρ) : Cache ρ :=
  if length ≤ 0 then cache
  else
    { cache with
      windows := popWindows cache.windowSize (offset + length)
        (offset - offset % cache.windowSize) cache.windows }

def writeAt (data : Bytes) (offset : ℕ) (cache : Cache ρ) : Except Exn ℤ × Cache ρ :=
  match cache.w with
  | none => (.error (.cacheReadOnlyError "iusb: cache backing is read-only"), cache)
  | some write =>
      match write data offset cache.r with
      | (.error exn, r) => (.error exn, { cache with r })
      | (.ok n, r) => (.ok n, { cache with r }.invalidate offset data.length)

end Cache

instance {ρ : Type u} [Reader ρ] : Reader (Cache ρ) where
  size := Cache.size
  readAt := Cache.readAt

end Asmb8Ikvm.Iusb
