import Flora.Caps
import Mathlib.Data.Nat.Bitwise

/-! # Sender tags

`TagHelper` of `ser-helper.h`: the 64-bit tag that tells receivers where a message comes from. A tag
of a tcp connection has its top bit set and holds the fields of the peer's `sockaddr_in` as they are,
that is in network byte order; a tag of a unix connection is a process id. The host is little-endian. -/

namespace Flora

/-- The fields of a `sockaddr_in`, as the host reads them. -/
structure SockaddrIn where
  sinPort : BitVec 16
  sAddr : Word

def htons (port : BitVec 16) : BitVec 16 := port.extractLsb' 0 8 ++ port.extractLsb' 8 8

/-- The bytes of a word in the order in which they lie in memory. -/
def Word.bytes (w : Word) : List (BitVec 8) :=
  [w.extractLsb' 0 8, w.extractLsb' 8 8, w.extractLsb' 16 8, w.extractLsb' 24 8]

def htonl (addr : Word) : Word :=
  addr.extractLsb' 0 8 ++ addr.extractLsb' 8 8 ++ addr.extractLsb' 16 8 ++ addr.extractLsb' 24 8

/-- `inet_ntoa`: the bytes of an address, which is in network byte order, as they lie in memory. -/
def inetNtoa (addr : Word) : String :=
  String.intercalate "." (addr.bytes.map fun b => Nat.repr b.toNat)

/-- What `accept` fills in for a peer with this address and port number. -/
def SockaddrIn.ofPeer (address : Word) (port : BitVec 16) : SockaddrIn where
  sinPort := htons port
  sAddr := htonl address

/-- The text of an address: its bytes, the most significant one first. -/
def dotted (address : Word) : String :=
  String.intercalate "." (address.bytes.reverse.map fun b => Nat.repr b.toNat)

namespace TagHelper

def create (addr : SockaddrIn) : BitVec 64 :=
  ((0x80000000 ||| addr.sinPort.setWidth 32 : Word).setWidth 64 <<< 32) ||| addr.sAddr.setWidth 64

/-- `create` for a process id; an `int32_t` argument is converted to `uint32_t`. -/
def createPid (pid : Word) : BitVec 64 := pid.setWidth 64

def type (tag : BitVec 64) : Word := if (tag >>> 32) &&& 0x80000000 ≠ 0 then 1 else 0

def pid (tag : BitVec 64) : Word := (tag &&& 0xffffffff).setWidth 32

/-- `iaddr.s_addr` in `ipaddr`. -/
def sAddr (tag : BitVec 64) : Word := (tag &&& 0xffffffff).setWidth 32

def ipaddr (tag : BitVec 64) : String := inetNtoa (sAddr tag)

def port (tag : BitVec 64) : BitVec 16 := ((tag >>> 32) &&& 0xffff).setWidth 16

/-- `to_string`; a `pid_t` is signed. -/
def toString (tag : BitVec 64) : String :=
  if type tag = 0 then Int.repr (pid tag).toInt else ipaddr tag ++ ":" ++ Nat.repr (port tag).toNat

variable {addr : SockaddrIn} {tag : BitVec 64}

theorem toNat_sAddr : (sAddr tag).toNat = tag.toNat % 2 ^ 32 := by
  have hmask : tag.toNat &&& (0xffffffff : BitVec 64).toNat = tag.toNat % 2 ^ 32 :=
    Nat.and_two_pow_sub_one_eq_mod tag.toNat 32
  rw [sAddr, BitVec.toNat_setWidth, BitVec.toNat_and, hmask, Nat.mod_mod]

theorem toNat_port : (port tag).toNat = tag.toNat / 2 ^ 32 % 2 ^ 16 := by
  have hmask : (tag >>> 32).toNat &&& (0xffff : BitVec 64).toNat = (tag >>> 32).toNat % 2 ^ 16 :=
    Nat.and_two_pow_sub_one_eq_mod _ 16
  rw [port, BitVec.toNat_setWidth, BitVec.toNat_and, hmask, Nat.mod_mod, BitVec.toNat_ushiftRight,
    Nat.shiftRight_eq_div_pow]

theorem type_eq : type tag = if 2 ^ 63 ≤ tag.toNat then 1 else 0 := by
  have hbit : (tag.toNat / 2 ^ 32).testBit 31 = decide (2 ^ 63 ≤ tag.toNat) := by
    have hlt := tag.isLt
    rw [Nat.testBit_eq_decide_div_mod_eq, Nat.div_div_eq_div_mul]
    exact decide_eq_decide.mpr (by omega)
  have hmask : (tag >>> 32 &&& 0x80000000).toNat =
      (decide (2 ^ 63 ≤ tag.toNat)).toNat * 2 ^ 31 := by
    rw [BitVec.toNat_and, BitVec.toNat_ushiftRight, Nat.shiftRight_eq_div_pow, ← hbit]
    exact Nat.and_two_pow _ 31
  have hzero : tag >>> 32 &&& 0x80000000 ≠ 0 ↔ 2 ^ 63 ≤ tag.toNat := by
    rw [ne_eq, ← BitVec.toNat_inj, hmask]
    simp
  exact if_congr hzero rfl rfl

theorem toNat_createPid (p : Word) : (createPid p).toNat = p.toNat := by
  have hlt := p.isLt
  rw [createPid, BitVec.toNat_setWidth]
  exact Nat.mod_eq_of_lt (by omega)

theorem toNat_create : (create addr).toNat =
    2 ^ 63 + addr.sinPort.toNat * 2 ^ 32 + addr.sAddr.toNat := by
  have hport := addr.sinPort.isLt
  have haddr := addr.sAddr.isLt
  have hhigh : (0x80000000 ||| addr.sinPort.setWidth 32 : Word).toNat =
      2 ^ 31 + addr.sinPort.toNat := by
    have hor := Nat.two_pow_add_eq_or_of_lt (i := 31) (b := addr.sinPort.toNat) (by omega) 1
    rw [BitVec.toNat_or, BitVec.toNat_setWidth, Nat.mod_eq_of_lt (by omega)]
    rw [Nat.mul_one] at hor
    exact hor.symm
  have hshift : ((0x80000000 ||| addr.sinPort.setWidth 32 : Word).setWidth 64 <<< 32).toNat =
      2 ^ 32 * (2 ^ 31 + addr.sinPort.toNat) := by
    rw [BitVec.toNat_shiftLeft, BitVec.toNat_setWidth, hhigh, Nat.mod_eq_of_lt (by omega),
      Nat.shiftLeft_eq, Nat.mod_eq_of_lt (by omega), Nat.mul_comm]
  rw [create, BitVec.toNat_or, hshift, BitVec.toNat_setWidth, Nat.mod_eq_of_lt (by omega),
    ← Nat.two_pow_add_eq_or_of_lt haddr]
  omega

theorem type_create : type (create addr) = 1 := by
  rw [type_eq, toNat_create, if_pos (by omega)]

theorem port_create : port (create addr) = addr.sinPort := by
  have hport := addr.sinPort.isLt
  have haddr := addr.sAddr.isLt
  apply BitVec.eq_of_toNat_eq
  rw [toNat_port, toNat_create]
  omega

theorem sAddr_create : sAddr (create addr) = addr.sAddr := by
  have haddr := addr.sAddr.isLt
  apply BitVec.eq_of_toNat_eq
  rw [toNat_sAddr, toNat_create]
  omega

theorem type_createPid (p : Word) : type (createPid p) = 0 := by
  have hlt := p.isLt
  rw [type_eq, toNat_createPid, if_neg (by omega)]

theorem pid_createPid (p : Word) : pid (createPid p) = p := by
  apply BitVec.eq_of_toNat_eq
  have hpid : (pid (createPid p)).toNat = (createPid p).toNat % 2 ^ 32 := toNat_sAddr
  rw [hpid, toNat_createPid]
  exact Nat.mod_eq_of_lt p.isLt

theorem create_injective : Function.Injective create := by
  rintro ⟨p, a⟩ ⟨p', a'⟩ h
  have hport := congrArg port h
  have haddr := congrArg sAddr h
  rw [port_create, port_create] at hport
  rw [sAddr_create, sAddr_create] at haddr
  exact congrArg₂ SockaddrIn.mk hport haddr

theorem createPid_injective : Function.Injective createPid :=
  Function.LeftInverse.injective pid_createPid

theorem create_ne_createPid (addr : SockaddrIn) (p : Word) : create addr ≠ createPid p := by
  intro h
  have htype := congrArg type h
  rw [type_create, type_createPid] at htype
  exact absurd htype (by decide)

end TagHelper

theorem toNat_append_byte {w : Nat} (x : BitVec w) (b : BitVec 8) :
    (x ++ b).toNat = x.toNat * 256 + b.toNat := by
  rw [BitVec.toNat_append, ← Nat.shiftLeft_add_eq_or_of_lt b.isLt, Nat.shiftLeft_eq]

theorem toNat_byte {w : Nat} (x : BitVec w) (k : Nat) :
    (x.extractLsb' k 8).toNat = x.toNat / 2 ^ k % 256 := by
  rw [BitVec.extractLsb'_toNat, Nat.shiftRight_eq_div_pow]

theorem toNat_htons (port : BitVec 16) :
    (htons port).toNat = port.toNat % 256 * 256 + port.toNat / 256 := by
  have hlt := port.isLt
  rw [htons, toNat_append_byte, toNat_byte, toNat_byte]
  omega

/-- A port reads the same in both byte orders only if its bytes are equal. -/
theorem htons_eq_self_iff (port : BitVec 16) :
    htons port = port ↔ port.toNat / 256 = port.toNat % 256 := by
  have hlt := port.isLt
  rw [← BitVec.toNat_inj, toNat_htons]
  omega

theorem bytes_append (b₃ b₂ b₁ b₀ : BitVec 8) :
    Word.bytes (b₃ ++ b₂ ++ b₁ ++ b₀) = [b₀, b₁, b₂, b₃] := by
  have hnum : (b₃ ++ b₂ ++ b₁ ++ b₀).toNat =
      ((b₃.toNat * 256 + b₂.toNat) * 256 + b₁.toNat) * 256 + b₀.toNat := by
    rw [toNat_append_byte, toNat_append_byte, toNat_append_byte]
  have h₀ := b₀.isLt
  have h₁ := b₁.isLt
  have h₂ := b₂.isLt
  have h₃ := b₃.isLt
  have hbyte (k : Nat) : (BitVec.extractLsb' k 8 (b₃ ++ b₂ ++ b₁ ++ b₀)).toNat =
      (((b₃.toNat * 256 + b₂.toNat) * 256 + b₁.toNat) * 256 + b₀.toNat) / 2 ^ k % 256 := by
    rw [toNat_byte, hnum]
  refine congrArg₂ List.cons ?_ (congrArg₂ List.cons ?_ (congrArg₂ List.cons ?_
    (congrArg₂ List.cons ?_ rfl))) <;>
  · apply BitVec.eq_of_toNat_eq
    refine (hbyte _).trans ?_
    omega

theorem bytes_htonl (addr : Word) : (htonl addr).bytes = addr.bytes.reverse :=
  bytes_append _ _ _ _

theorem inetNtoa_htonl (address : Word) : inetNtoa (htonl address) = dotted address := by
  rw [inetNtoa, bytes_htonl]
  rfl

namespace TagHelper

theorem ipaddr_ofPeer (address : Word) (number : BitVec 16) :
    ipaddr (create (.ofPeer address number)) = dotted address := by
  rw [ipaddr, sAddr_create]
  exact inetNtoa_htonl address

theorem toString_createPid (p : Word) : toString (createPid p) = Int.repr p.toInt := by
  rw [toString, if_pos (type_createPid p), pid_createPid]

/-- The port in the text of a tcp tag has its bytes swapped too. -/
theorem toString_ofPeer (address : Word) (number : BitVec 16) :
    toString (create (.ofPeer address number)) =
      dotted address ++ ":" ++ Nat.repr (number.toNat % 256 * 256 + number.toNat / 256) := by
  have htype : type (create (.ofPeer address number)) ≠ 0 := by
    rw [type_create]
    decide
  rw [toString, if_neg htype, ipaddr_ofPeer, port_create, ← toNat_htons]
  rfl

/-- The tag of the tcp peer with this address and port number tells the type, the port number and the
address. -/
structure Decodes (address : Word) (number : BitVec 16) : Prop where
  type : TagHelper.type (create (.ofPeer address number)) = 1
  port : TagHelper.port (create (.ofPeer address number)) = number
  sAddr : TagHelper.sAddr (create (.ofPeer address number)) =
    (SockaddrIn.ofPeer address number).sAddr
  ipaddr : TagHelper.ipaddr (create (.ofPeer address number)) = dotted address

/-- `port` returns the port in network byte order, so that a tcp tag is decoded to what was encoded
exactly if the two bytes of the port number are equal. Everything else is as it should be: the tags of
process ids are decoded, and no two peers, no two processes, and no peer and process share a tag. -/
theorem tags_decode_iff (address : Word) (number : BitVec 16) :
    (Decodes address number ↔ number.toNat / 256 = number.toNat % 256) ∧
    (∀ p, type (createPid p) = 0 ∧ pid (createPid p) = p) ∧
    Function.Injective create ∧ Function.Injective createPid ∧
    ∀ addr p, create addr ≠ createPid p := by
  refine ⟨?_, fun p => ⟨type_createPid p, pid_createPid p⟩, create_injective, createPid_injective,
    create_ne_createPid⟩
  rw [← htons_eq_self_iff]
  constructor
  · intro h
    exact port_create.symm.trans h.port
  · intro h
    exact ⟨type_create, port_create.trans h, sAddr_create, ipaddr_ofPeer address number⟩

/-- The tag of 127.0.0.1:8080 says port 36895. -/
theorem tags_decode_fails_port : ¬ ∀ address port, Decodes address port := by
  intro h
  exact absurd (h 0x7f000001 8080).port (by decide)

end TagHelper

end Flora
