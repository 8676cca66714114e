import Tun2Socks.Net.BAddr
import Tun2Socks.Net.Check

/-!
# The text of an IPv6 address

`ipaddr6.h`: `ipaddr6_print_addr` writes an address as eight blocks in hexadecimal, with the first
longest run of two or more zero blocks as `::`, and `ipaddr6_parse_ipv6_addr` reads such a text. The
parser goes through the text once. It stores each block when it comes to the colon behind it, and
where it finds `::` it remembers how many blocks it has. At the end it moves the blocks behind that
place to the end of the address, and fills the gap with zeros. If it comes to a dot, it goes back to
the last colon and reads an IPv4 address as the last four bytes.

The parser stops with `fail` where the code returns 0, and with `bounds` where it would read outside
of the text or write outside of the address.
-/

namespace Tun2Socks.Net

open Framework

/-! ### Parsing -/

inductive ParseStop
  /-- `return 0`. -/
  | fail
  | bounds
  deriving DecidableEq, Repr

/-- `decode_decimal_digit`. -/
def decodeDecimalDigit (c : Byte) : Option ℕ :=
  if 48 ≤ c ∧ c ≤ 57 then some (c.toNat - 48) else none

/-- `decode_hex_digit`. -/
def decodeHexDigit (c : Byte) : Option ℕ :=
  if 48 ≤ c ∧ c ≤ 57 then some (c.toNat - 48)
  else if 65 ≤ c ∧ c ≤ 70 then some (c.toNat - 55)
  else if 97 ≤ c ∧ c ≤ 102 then some (c.toNat - 87)
  else none

/-- The variables of the parser. -/
structure Ipv6Scan where
  /-- `out_addr->bytes`. -/
  bytes : Buffer Byte 16
  numBlocks : ℕ
  /-- `none` is -1. -/
  compressPos : Option ℕ
  /-- A `uint16_t`. -/
  block : ℕ
  empty : Bool

/-- Bytes are written to the address. -/
def putBytes (bytes : Buffer Byte 16) (i : ℕ) (data : List Byte) :
    Except ParseStop (Buffer Byte 16) :=
  if h : i + data.length ≤ 16 then .ok (bytes.write i data h) else .error .bounds

/-- The two bytes of a block. -/
def blockBytes (block : ℕ) : List Byte := [UInt8.ofNat (block / 256), UInt8.ofNat block]

namespace Ipv6Scan

/-- The block is stored. -/
def store (s : Ipv6Scan) : Except ParseStop Ipv6Scan := do
  let bytes ← putBytes s.bytes (2 * s.numBlocks) (blockBytes s.block)
  pure { s with bytes, numBlocks := s.numBlocks + 1 }

/-- A colon that is not the first character of the text. -/
def endBlock (s : Ipv6Scan) : Except ParseStop Ipv6Scan :=
  if s.empty ∨ s.numBlocks = 7 then .error .fail
  else do
    let s ← s.store
    pure { s with block := 0, empty := true }

/-- The second of two colons. -/
def compress (s : Ipv6Scan) : Except ParseStop Ipv6Scan :=
  if s.compressPos ≠ none then .error .fail
  else .ok { s with compressPos := some s.numBlocks }

/-- One colon at position `i`. -/
def single (s : Ipv6Scan) (i : ℕ) : Except ParseStop Ipv6Scan :=
  if 0 < i then s.endBlock else .error .fail

/-- Two colons at position `i`. -/
def double (s : Ipv6Scan) (i : ℕ) : Except ParseStop Ipv6Scan :=
  if 0 < i then do compress (← s.endBlock) else s.compress

/-- A digit of a block. -/
def digit (s : Ipv6Scan) (c : Byte) : Except ParseStop Ipv6Scan :=
  match decodeHexDigit c with
  | none => .error .fail
  | some digit =>
    if 65535 / 16 < s.block then .error .fail
    else if 65535 - s.block * 16 < digit then .error .fail
    else .ok { s with block := s.block * 16 + digit, empty := false }

/-- The first loop, from position `i` on. It ends at the end of the text, or at a dot, whose position
is returned. -/
def scan (s : Ipv6Scan) (i : ℕ) : List Byte → Except ParseStop (Ipv6Scan × Option ℕ)
  | [] => .ok (s, none)
  | c :: rest =>
    if c = 46 then .ok (s, some i)
    else if c = 58 then
      match rest with
      | [] => do scan (← s.single i) (i + 1) []
      | c' :: rest' =>
        if c' = 58 then do scan (← s.double i) (i + 2) rest'
        else do scan (← s.single i) (i + 1) (c' :: rest')
    else do scan (← s.digit c) (i + 1) rest

/-- The end of the text. -/
def finish (s : Ipv6Scan) : Except ParseStop Ipv6Scan :=
  if ¬ s.empty then s.store
  else if some s.numBlocks ≠ s.compressPos then .error .fail
  else .ok s

/-- The blocks behind `compressPos` are moved to the end, and the gap is filled with zeros. -/
def expandAt (s : Ipv6Scan) (compressPos : ℕ) : Except ParseStop (Buffer Byte 16) :=
  if s.numBlocks < compressPos ∨ 8 < s.numBlocks then .error .bounds
  else do
    let numRear := s.numBlocks - compressPos
    let bytes ← putBytes s.bytes (2 * (8 - numRear))
      (s.bytes.slice (2 * compressPos) (2 * compressPos + 2 * numRear))
    putBytes bytes (2 * compressPos) (List.replicate (2 * (8 - numRear - compressPos)) 0)

/-- The label `ipv4_done`. -/
def expand (s : Ipv6Scan) : Except ParseStop (Buffer Byte 16) :=
  match s.compressPos with
  | some compressPos => s.expandAt compressPos
  | none => if s.numBlocks ≠ 8 then .error .fail else s.expandAt 0

end Ipv6Scan

/-- The position behind the last colon in front of position `i`. -/
def afterColon (name : List Byte) : ℕ → Except ParseStop ℕ
  | 0 => .error .bounds
  | i + 1 =>
    match name[i]? with
    | none => .error .bounds
    | some c => if c = 58 then .ok (i + 1) else afterColon name i

/-- The variables of the second loop. `bytes[4]` is only ever filled from the front. -/
structure Ipv4Scan where
  bytes : List Byte
  byte : ℕ
  empty : Bool

namespace Ipv4Scan

/-- `bytes[cur_byte] = byte; cur_byte++`. -/
def store (s : Ipv4Scan) : Except ParseStop Ipv4Scan :=
  if s.bytes.length < 4 then .ok { s with bytes := s.bytes ++ [UInt8.ofNat s.byte] }
  else .error .bounds

/-- A dot. -/
def dot (s : Ipv4Scan) : Except ParseStop Ipv4Scan :=
  if s.empty ∨ s.bytes.length = 3 then .error .fail
  else do
    let s ← s.store
    pure { s with byte := 0, empty := true }

def digit (s : Ipv4Scan) (c : Byte) : Except ParseStop Ipv4Scan :=
  if ¬ s.empty ∧ s.byte = 0 then .error .fail
  else match decodeDecimalDigit c with
    | none => .error .fail
    | some digit =>
      if 255 / 10 < s.byte then .error .fail
      else if 255 - s.byte * 10 < digit then .error .fail
      else .ok { s with byte := s.byte * 10 + digit, empty := false }

/-- The second loop. -/
def scan (s : Ipv4Scan) : List Byte → Except ParseStop Ipv4Scan
  | [] => .ok s
  | c :: rest => do scan (← if c = 46 then s.dot else s.digit c) rest

/-- The four bytes. -/
def finish (s : Ipv4Scan) : Except ParseStop (List Byte) :=
  if s.bytes.length ≠ 3 ∨ s.empty then .error .fail
  else do
    let s ← s.store
    pure s.bytes

end Ipv4Scan

/-- The label `ipv4_ending`, at a dot at position `i`. -/
def Ipv6Scan.ipv4Ending (s : Ipv6Scan) (name : List Byte) (i : ℕ) : Except ParseStop Ipv6Scan :=
  if s.empty ∨ s.numBlocks = 0 ∧ s.compressPos = none then .error .fail
  else do
    let start ← afterColon name i
    let ipv4 ← Ipv4Scan.scan ⟨[], 0, true⟩ (name.drop start)
    let data ← ipv4.finish
    if 8 < s.numBlocks + 2 then .error .fail
    else do
      let bytes ← putBytes s.bytes (2 * s.numBlocks) data
      pure { s with bytes, numBlocks := s.numBlocks + 2 }

/-- What follows the first loop. -/
def Ipv6Scan.afterScan (name : List Byte) :
    Ipv6Scan × Option ℕ → Except ParseStop (Buffer Byte 16)
  | (s, none) => do (← s.finish).expand
  | (s, some i) => do (← s.ipv4Ending name i).expand

/-- `ipaddr6_parse_ipv6_addr_bin`; `outAddr` is what the address is before. -/
def parseIpv6AddrBin (name : List Byte) (outAddr : Buffer Byte 16) :
    Except ParseStop (Buffer Byte 16) := do
  Ipv6Scan.afterScan name (← Ipv6Scan.scan ⟨outAddr, 0, none, 0, true⟩ 0 name)

/-- `ipaddr6_parse_ipv6_addr`; `memory` starts with a C string. -/
def parseIpv6Addr (memory : List Byte) (outAddr : Buffer Byte 16) :
    Except ParseStop (Buffer Byte 16) :=
  parseIpv6AddrBin (memory.take (CString.strlen memory)) outAddr

/-! ### Printing -/

/-- `IPADDR6_PRINT_MAX`. -/
def ipaddr6PrintMax : ℕ := 44

/-- Block `i` of an address. -/
def blockAt (addr : Buffer Byte 16) (i : ℕ) : ℕ :=
  256 * (byteAt addr.cells (2 * i)).toNat + (byteAt addr.cells (2 * i + 1)).toNat

/-- The longest run of zero blocks so far, and the one that ends here. -/
structure ZeroRuns where
  largestStart : ℕ
  largestLen : ℕ
  currentStart : ℕ
  currentLen : ℕ

/-- One iteration of the loop that looks for runs. -/
def ZeroRuns.step (addr : Buffer Byte 16) (r : ZeroRuns) (i : ℕ) : ZeroRuns :=
  if byteAt addr.cells (2 * i) = 0 ∧ byteAt addr.cells (2 * i + 1) = 0 then
    if r.largestLen < r.currentLen + 1 then
      ⟨r.currentStart, r.currentLen + 1, r.currentStart, r.currentLen + 1⟩
    else { r with currentLen := r.currentLen + 1 }
  else { r with currentStart := i + 1, currentLen := 0 }

/-- The loop. -/
def zeroRuns (addr : Buffer Byte 16) : ZeroRuns :=
  (List.range 8).foldl (ZeroRuns.step addr) ⟨0, 0, 0, 0⟩

def colonText : CString := colon

def emptyText : CString := .empty

/-- The text for an address in which the run that starts at `start` is left out. -/
def printCompressed (addr : Buffer Byte 16) (start len : ℕ) : CString :=
  let front := (List.range start).foldl
    (fun out i => out ++ (hexadecimal (blockAt addr i) ++ colonText)) emptyText
  let front := if start = 0 then front ++ colonText else front
  let rear := (List.range' (start + len) (8 - (start + len))).foldl
    (fun out i => out ++ (colonText ++ hexadecimal (blockAt addr i))) front
  if start + len = 8 then rear ++ colonText else rear

/-- The text with all blocks; the separator is empty in front of the first one. -/
def printFull (addr : Buffer Byte 16) : CString :=
  ((List.range 8).foldl
    (fun out i => (out.1 ++ (out.2 ++ hexadecimal (blockAt addr i)), colonText))
    (emptyText, emptyText)).1

/-- `ipaddr6_print_addr`. -/
def printAddr (addr : Buffer Byte 16) : CString :=
  let r := zeroRuns addr
  if 1 < r.largestLen then printCompressed addr r.largestStart r.largestLen else printFull addr

end Tun2Socks.Net
