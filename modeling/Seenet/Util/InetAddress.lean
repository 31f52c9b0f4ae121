import Mathlib.Algebra.Order.BigOperators.Group.List
import Mathlib.Data.List.MinMax
import Seenet.Basic
import Seenet.Lib.Decimal
import Seenet.Util.Endian

/-!
# Internet addresses

`InetAddress` is a union of a `sockaddr_in` and a `sockaddr_in6`: the family and the port are in the same
place in both, and the address of the first is where the second has its flow information.  The scope is
left out, which no text shows.

`inet_ntop` is the one of the C library.  It writes an IPv6 address in words of hexadecimal digits, with two
colons for the first of its longest runs of zero words, and the last two words in decimal if the words before
them say that they are an IPv4 address.

* **`toIpPort_spec`** — the text of an address and its port, whatever the family: nothing is cut off.
* `length_toIpPort_le` — its length.
-/

namespace Seenet

/-- `snprintf` into a buffer of `size` characters, the terminating one included. -/
def snprintf (size : ℕ) (text : String) : String := String.ofList (text.toList.take (size - 1))

lemma snprintf_eq {size : ℕ} {text : String} (h : text.length < size) : snprintf size text = text := by
  rw [snprintf, List.take_of_length_le (by rw [String.length_toList]; omega), String.ofList_toList]

/-- The union of `sockaddr_in` and `sockaddr_in6`. -/
structure InetAddress where
  sin_family : BitVec 16
  sin_port : BitVec (8 * 2)
  sin_addr : BitVec (8 * 4)
  sin6_addr : Vector UInt8 16

namespace sockets

def AF_INET : BitVec 16 := 2
def AF_INET6 : BitVec 16 := 10
def INET_ADDRSTRLEN : ℕ := 16
def INET6_ADDRSTRLEN : ℕ := 46

/-! ## `inet_ntop` -/

/-- The text of an IPv4 address. -/
def inet_ntop4 (src : List UInt8) : String := ".".intercalate (src.map fun b => toString b.toNat)

/-- The words of an IPv6 address. -/
def words : List UInt8 → List ℕ
  | hi :: lo :: src => (256 * hi.toNat + lo.toNat) :: words src
  | _ => []

/-- The length of the run of zero words that a list begins with. -/
def zeros (words : List ℕ) : ℕ := (words.takeWhile (· = 0)).length

/-- The first of the longest runs of two or more zero words: where it begins, and its length. -/
def best (words : List ℕ) : ℕ × ℕ :=
  let base := ((List.range words.length).argmax fun i => zeros (words.drop i)).getD 0
  let len := zeros (words.drop base)
  if len < 2 then (0, 0) else (base, len)

/-- `%x` -/
def hex (n : ℕ) : String := String.ofList (Nat.toDigits 16 n)

/-- What is written for the word `i`, when a run of `len` zero words begins at `base`. -/
def word (words : List ℕ) (base len i : ℕ) : String :=
  if base ≤ i ∧ i < base + len then (if i = base then ":" else "")
  else (if i = 0 then "" else ":") ++ hex (words.getD i 0)

/-- The text of an IPv6 address. -/
def inet_ntop6 (src : Vector UInt8 16) : String :=
  let words := words src.toList
  let (base, len) := best words
  if base = 0 ∧ (len = 6 ∨ len = 5 ∧ words.getD 5 0 = 0xffff) then
    -- an encapsulated IPv4 address
    String.join ((List.range 6).map (word words base len)) ++ ":" ++ inet_ntop4 (src.toList.drop 12)
  else
    String.join ((List.range 8).map (word words base len)) ++
      if 0 < len ∧ base + len = 8 then ":" else ""

/-- `inet_ntop` gives the text to a buffer of `size` characters that contains `buf`.  It fails with `ENOSPC`
and leaves the buffer alone if there is no room. -/
def inet_ntop (text buf : String) (size : ℕ) : String := if text.length < size then text else buf

/-! ## The text of an address -/

/-- A buffer of `size` characters, that contains `buf`, is given the text of the address. -/
def toIp (buf : String) (size : ℕ) (addr : InetAddress) : Res String :=
  if addr.sin_family = AF_INET then do
    assertThat (INET_ADDRSTRLEN ≤ size) .toIp
    return inet_ntop (inet_ntop4 (ByteOrder.memoryImage addr.sin_addr)) buf size
  else if addr.sin_family = AF_INET6 then do
    assertThat (INET6_ADDRSTRLEN < size) .toIp
    return inet_ntop (inet_ntop6 addr.sin6_addr) buf size
  else return buf

def toIpPort (buf : String) (size : ℕ) (addr : InetAddress) : Res String := do
  let buf ← toIp buf size addr
  let port := networkToHost16 addr.sin_port
  assertThat (buf.length < size) .toIpPort
  return buf ++ snprintf (size - buf.length) (":" ++ toString port.toNat)

end sockets

namespace InetAddress

def toIp (addr : InetAddress) : Res String := sockets.toIp "" 64 addr

def toIpPort (addr : InetAddress) : Res String := sockets.toIpPort "" 64 addr

end InetAddress

/-! ## How long the texts are -/

namespace sockets

lemma length_decimal_byte_le (b : UInt8) : (toString b.toNat).length ≤ 3 :=
  Decimal.length_toString_nat_le (by decide) (b.toNat_lt.trans (by decide))

lemma length_inet_ntop4_le {src : List UInt8} (h : src.length = 4) :
    (inet_ntop4 src).length ≤ 15 := by
  match src, h with
  | [a, b, c, d], _ =>
      have ha := length_decimal_byte_le a
      have hb := length_decimal_byte_le b
      have hc := length_decimal_byte_le c
      have hd := length_decimal_byte_le d
      have hdot : ".".length = 1 := rfl
      simp only [inet_ntop4, List.map_cons, List.map_nil, String.intercalate_cons_cons,
        String.intercalate_singleton, String.length_append, hdot]
      omega

lemma words_lt (src : List UInt8) : ∀ w ∈ words src, w < 16 ^ 4 := by
  induction src using words.induct with
  | case1 hi lo src ih =>
      intro w hw
      rw [words, List.mem_cons] at hw
      rcases hw with rfl | hw
      · have hhi := hi.toNat_lt
        have hlo := lo.toNat_lt
        omega
      · exact ih w hw
  | case2 src h => simp [words]

lemma length_hex_le {n k : ℕ} (hk : 0 < k) (h : n < 16 ^ k) : (hex n).length ≤ k := by
  rw [hex, String.length_ofList]
  exact (Nat.length_toDigits_le_iff (by decide) hk).mpr h

/-- A colon, and four digits. -/
lemma length_word_le {ws : List ℕ} (h : ∀ w ∈ ws, w < 16 ^ 4) (base len i : ℕ) :
    (word ws base len i).length ≤ 5 := by
  have hget : ws.getD i 0 < 16 ^ 4 := by
    rw [List.getD_eq_getElem?_getD]
    cases hw : ws[i]? with
    | none => exact Nat.pow_pos (by decide)
    | some w => exact h w (List.mem_of_getElem? hw)
  have hhex := length_hex_le (by decide) hget
  have hcolon : ":".length = 1 := rfl
  have hempty : "".length = 0 := rfl
  rw [word]
  split_ifs <;> simp only [String.length_append, hcolon, hempty] <;> omega

lemma length_join_words_le {ws : List ℕ} (h : ∀ w ∈ ws, w < 16 ^ 4) (base len : ℕ) (is : List ℕ) :
    (String.join (is.map (word ws base len))).length ≤ is.length * 5 := by
  rw [String.length_join]
  refine (List.sum_le_card_nsmul _ 5 ?_).trans (by simp)
  intro n hn
  simp only [List.map_map, List.mem_map, Function.comp_apply] at hn
  obtain ⟨i, -, rfl⟩ := hn
  exact length_word_le h base len i

/-- Of a run of zero words that the address begins with, one colon is left. -/
lemma join_run {ws : List ℕ} {len : ℕ} (h : 5 ≤ len) :
    String.join ((List.range 5).map (word ws 0 len)) = ":" := by
  have hword : ∀ i ∈ List.range 5, word ws 0 len i = if i = 0 then ":" else "" := by
    intro i hi
    rw [word, if_pos ⟨Nat.zero_le i, by rw [Nat.zero_add]; exact (List.mem_range.mp hi).trans_le h⟩]
  rw [List.map_congr_left hword]
  rfl

lemma length_inet_ntop6_le (src : Vector UInt8 16) : (inet_ntop6 src).length ≤ 41 := by
  have hlt := words_lt src.toList
  rw [inet_ntop6]
  generalize words src.toList = ws at hlt
  obtain ⟨base, len⟩ := best ws
  have hcolon : ":".length = 1 := rfl
  dsimp only
  split_ifs with henc htrail
  · obtain ⟨rfl, hlen⟩ := henc
    have hrun : String.join ((List.range 5).map (word ws 0 len)) = ":" := join_run (by omega)
    have hlast := length_join_words_le hlt 0 len [5]
    have h4 : (inet_ntop4 (src.toList.drop 12)).length ≤ 15 := length_inet_ntop4_le (by simp)
    have hsplit : List.range 6 = List.range 5 ++ [5] := rfl
    rw [hsplit, List.map_append, String.join_append, hrun]
    simp only [String.length_append, hcolon, List.length_singleton] at hlast ⊢
    omega
  · have hall := length_join_words_le hlt base len (List.range 8)
    rw [List.length_range] at hall
    rw [String.length_append, hcolon]
    omega
  · have hall := length_join_words_le hlt base len (List.range 8)
    rw [List.length_range] at hall
    rw [String.append_empty]
    omega

/-- The text of an IPv4 address fits into the buffer. -/
lemma toIp_inet {addr : InetAddress} (h : addr.sin_family = AF_INET) :
    addr.toIp = .ok (inet_ntop4 (ByteOrder.memoryImage addr.sin_addr)) := by
  have hlen := length_inet_ntop4_le (ByteOrder.length_memoryImage addr.sin_addr)
  rw [InetAddress.toIp, toIp, if_pos h, assertThat_pos (by decide), bind_ok, pure_eq_ok, inet_ntop,
    if_pos (by omega)]

/-- And that of an IPv6 address. -/
lemma toIp_inet6 {addr : InetAddress} (h : addr.sin_family = AF_INET6) :
    addr.toIp = .ok (inet_ntop6 addr.sin6_addr) := by
  have hlen := length_inet_ntop6_le addr.sin6_addr
  have hne : ¬ addr.sin_family = AF_INET := by
    rw [h]
    decide
  rw [InetAddress.toIp, toIp, if_neg hne, if_pos h, assertThat_pos (by decide), bind_ok, pure_eq_ok,
    inet_ntop, if_pos (by omega)]

/-- An address of any other family has no text. -/
lemma toIp_of_ne {addr : InetAddress} (h : addr.sin_family ≠ AF_INET) (h6 : addr.sin_family ≠ AF_INET6) :
    addr.toIp = .ok "" := by
  rw [InetAddress.toIp, toIp, if_neg h, if_neg h6, pure_eq_ok]

/-- **The text of an address is not cut off**, whatever its family. -/
lemma toIp_spec (addr : InetAddress) :
    ∃ ip, addr.toIp = .ok ip ∧ ip.length ≤ 41 := by
  by_cases h : addr.sin_family = AF_INET
  · have hlen := length_inet_ntop4_le (ByteOrder.length_memoryImage addr.sin_addr)
    exact ⟨_, toIp_inet h, by omega⟩
  · by_cases h6 : addr.sin_family = AF_INET6
    · exact ⟨_, toIp_inet6 h6, length_inet_ntop6_le addr.sin6_addr⟩
    · exact ⟨"", toIp_of_ne h h6, by decide⟩

end sockets

namespace InetAddress

lemma length_port_le (addr : InetAddress) :
    (":" ++ toString (sockets.networkToHost16 addr.sin_port).toNat).length ≤ 6 := by
  have hlt : (sockets.networkToHost16 addr.sin_port).toNat < 10 ^ 5 :=
    (sockets.networkToHost16 addr.sin_port).isLt.trans (by decide)
  have hdigits := Decimal.length_toString_nat_le (by decide) hlt
  have hcolon : ":".length = 1 := rfl
  rw [String.length_append, hcolon]
  omega

/-- **`toIpPort`** is the text of the address, a colon and the port. -/
lemma toIpPort_spec (addr : InetAddress) :
    ∃ ip, addr.toIp = .ok ip ∧ ip.length ≤ 41 ∧
      addr.toIpPort
        = .ok (ip ++ (":" ++ toString (sockets.networkToHost16 addr.sin_port).toNat)) := by
  obtain ⟨ip, hip, hlen⟩ := sockets.toIp_spec addr
  have hport := length_port_le addr
  refine ⟨ip, hip, hlen, ?_⟩
  rw [toIp] at hip
  rw [toIpPort, sockets.toIpPort, hip, bind_ok, assertThat_pos (by omega), bind_ok, pure_eq_ok,
    snprintf_eq (by omega)]

lemma length_toIpPort_le (addr : InetAddress) :
    ∃ ipPort, addr.toIpPort = .ok ipPort ∧ ipPort.length ≤ 47 := by
  obtain ⟨ip, -, hlen, hok⟩ := addr.toIpPort_spec
  have hport := length_port_le addr
  refine ⟨_, hok, ?_⟩
  rw [String.length_append]
  omega

end InetAddress

end Seenet
