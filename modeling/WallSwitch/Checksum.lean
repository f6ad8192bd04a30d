import WallSwitch.Bytes

/-!
This module contains the CRC-32 checksum of IEEE 802.3, and the sealing of items with it.
-/

namespace WallSwitch

namespace Checksum

/--
The generator polynomial, its lowest power first and without its highest.
-/
def polynomial : BitVec 32 := 0xEDB88320#32

/--
Divides on by one bit: the lowest bit of the register, if set, takes the polynomial off.
-/
def shift (register : BitVec 32) : BitVec 32 :=
  if register.getLsbD 0 then (register >>> 1) ^^^ polynomial else register >>> 1

def shiftBy : Nat → BitVec 32 → BitVec 32
  | 0, register => register
  | n + 1, register => shiftBy n (shift register)

def feed (register : BitVec 32) (byte : UInt8) : BitVec 32 :=
  shiftBy 8 (register ^^^ byte.toBitVec.setWidth 32)

def feedAll (register : BitVec 32) (bytes : Bytes) : BitVec 32 :=
  bytes.foldl feed register

def crc32 (bytes : Bytes) : BitVec 32 :=
  ~~~feedAll (BitVec.allOnes 32) bytes

def littleEndian (word : BitVec 32) : Bytes :=
  [⟨word.extractLsb' 0 8⟩, ⟨word.extractLsb' 8 8⟩, ⟨word.extractLsb' 16 8⟩,
    ⟨word.extractLsb' 24 8⟩]

def sealLength : Nat := 4

def close (body : Bytes) : Bytes :=
  body ++ littleEndian (crc32 body)

/--
Takes the checksum off again, if it is that of the bytes in front of it.
-/
def open? (item : Bytes) : Option Bytes :=
  if item.length < sealLength then
    none
  else
    let body := item.take (item.length - sealLength)
    if item.drop (item.length - sealLength) = littleEndian (crc32 body) then some body else none

end Checksum

end WallSwitch
