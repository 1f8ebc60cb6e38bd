import Mathlib.Algebra.Group.Nat.Defs
import Mathlib.Data.List.Forall2
import Mathlib.Data.List.Nodup
import Mathlib.Data.Set.Function

/-!
SHA-256 over lists of bytes. Every digest has thirty-two bytes (`sha256_length`), so
collisions exist; that none is met is said of the messages at hand (`CollisionFree`).
-/
namespace StellarAlerts.Sha256

abbrev Word := BitVec 32

/-- The eight working registers. -/
structure Registers where
  a : Word
  b : Word
  c : Word
  d : Word
  e : Word
  f : Word
  g : Word
  h : Word
deriving DecidableEq, Repr

def Registers.add (r s : Registers) : Registers :=
  ⟨r.a + s.a,r.b + s.b,r.c + s.c,r.d + s.d,r.e + s.e,r.f + s.f,r.g + s.g,r.h + s.h⟩
def Registers.words (r : Registers) : List Word := [r.a,r.b,r.c,r.d,r.e,r.f,r.g,r.h]
def initial : Registers :=
  ⟨0x6a09e667,0xbb67ae85,0x3c6ef372,0xa54ff53a,0x510e527f,0x9b05688c,0x1f83d9ab,0x5be0cd19⟩

def roundConstants : List Word :=
  [0x428a2f98,0x71374491,0xb5c0fbcf,0xe9b5dba5,0x3956c25b,0x59f111f1,0x923f82a4,0xab1c5ed5,
   0xd807aa98,0x12835b01,0x243185be,0x550c7dc3,0x72be5d74,0x80deb1fe,0x9bdc06a7,0xc19bf174,
   0xe49b69c1,0xefbe4786,0x0fc19dc6,0x240ca1cc,0x2de92c6f,0x4a7484aa,0x5cb0a9dc,0x76f988da,
   0x983e5152,0xa831c66d,0xb00327c8,0xbf597fc7,0xc6e00bf3,0xd5a79147,0x06ca6351,0x14292967,
   0x27b70a85,0x2e1b2138,0x4d2c6dfc,0x53380d13,0x650a7354,0x766a0abb,0x81c2c92e,0x92722c85,
   0xa2bfe8a1,0xa81a664b,0xc24b8b70,0xc76c51a3,0xd192e819,0xd6990624,0xf40e3585,0x106aa070,
   0x19a4c116,0x1e376c08,0x2748774c,0x34b0bcb5,0x391c0cb3,0x4ed8aa4a,0x5b9cca4f,0x682e6ff3,
   0x748f82ee,0x78a5636f,0x84c87814,0x8cc70208,0x90befffa,0xa4506ceb,0xbef9a3f7,0xc67178f2]

def choose (x y z : Word) : Word := (x &&& y) ^^^ (~~~x &&& z)
def majority (x y z : Word) : Word := (x &&& y) ^^^ (x &&& z) ^^^ (y &&& z)
def bigSigma0 (x : Word) : Word := x.rotateRight 2 ^^^ x.rotateRight 13 ^^^ x.rotateRight 22
def bigSigma1 (x : Word) : Word := x.rotateRight 6 ^^^ x.rotateRight 11 ^^^ x.rotateRight 25
def smallSigma0 (x : Word) : Word := x.rotateRight 7 ^^^ x.rotateRight 18 ^^^ x >>> 3
def smallSigma1 (x : Word) : Word := x.rotateRight 17 ^^^ x.rotateRight 19 ^^^ x >>> 10

/-- The window one word later: the schedule's recurrence reads the words 16, 15, 7 and 2 places back. -/
def slide (window : List Word) : List Word :=
  window.drop 1 ++
    [smallSigma1 (window.getD 14 0) + window.getD 9 0 + smallSigma0 (window.getD 1 0) + window.getD 0 0]

def round (r : Registers) (constant word : Word) : Registers :=
  let t1 := r.h + bigSigma1 r.e + choose r.e r.f r.g + constant + word
  let t2 := bigSigma0 r.a + majority r.a r.b r.c
  ⟨t1 + t2,r.a,r.b,r.c,r.d + t1,r.e,r.f,r.g⟩

def rounds : List Word → Registers → List Word → Registers
  | [], r, _ => r
  | constant :: rest, r, window => rounds rest (round r constant (window.getD 0 0)) (slide window)

def compress (r : Registers) (block : List Word) : Registers := r.add (rounds roundConstants r block)

/-- A number as bytes, the most significant first. -/
def bigEndian (width value : Nat) : List UInt8 :=
  (List.range width).reverse.map fun i => UInt8.ofNat (value / 256 ^ i % 256)

/-- The message, a one bit, zeros up to a whole block and the length in bits. -/
def pad (message : List UInt8) : List UInt8 :=
  message ++ 0x80 :: List.replicate ((119 - message.length % 64) % 64) 0 ++
    bigEndian 8 (8 * message.length)

def words : List UInt8 → List Word
  | a :: b :: c :: d :: rest =>
    BitVec.ofNat 32 (((a.toNat * 256 + b.toNat) * 256 + c.toNat) * 256 + d.toNat) :: words rest
  | _ => []

def blocks : Nat → List Word → List (List Word)
  | 0, _ => []
  | n + 1, ws => ws.take 16 :: blocks n (ws.drop 16)

def sha256 (message : List UInt8) : List UInt8 :=
  let padded := pad message
  let final := (blocks (padded.length / 64) (words padded)).foldl compress initial
  final.words.flatMap fun w => bigEndian 4 w.toNat

@[simp] theorem bigEndian_length (width value : Nat) : (bigEndian width value).length = width := by
  simp [bigEndian]

/-- Every digest has thirty-two bytes. -/
@[simp] theorem sha256_length (message : List UInt8) : (sha256 message).length = 32 := by
  simp [sha256,Registers.words]

def utf8 (text : String) : List UInt8 := text.toList.flatMap String.utf8EncodeChar

theorem utf8_append (a b : String) : utf8 (a ++ b) = utf8 a ++ utf8 b := by simp [utf8]

theorem utf8_ofList (word : List Char) : utf8 (String.ofList word) = word.flatMap String.utf8EncodeChar := by
  rw [utf8,String.toList_ofList]

theorem utf8_injective {a b : String} (same : utf8 a = utf8 b) : a = b := by
  rw [← @String.ofList_toList a,← @String.ofList_toList b,← String.toByteArray_inj,String.toByteArray_ofList,
    String.toByteArray_ofList]
  exact congrArg List.toByteArray same

/-- No two of the messages have one digest. -/
def CollisionFree (messages : List (List UInt8)) : Prop := Set.InjOn sha256 {m | m ∈ messages}

theorem collisionFree_mono {fewer more : List (List UInt8)} (sub : fewer ⊆ more) (free : CollisionFree more) :
    CollisionFree fewer :=
  Set.InjOn.mono (fun _ listed => sub listed) free

theorem collisionFree_of_nodup {messages distinct : List (List UInt8)} (listed : messages ⊆ distinct)
    (apart : (distinct.map sha256).Nodup) : CollisionFree messages := by
  intro a inFirst b inSecond same
  exact List.inj_on_of_nodup_map apart (listed inFirst) (listed inSecond) same

/-- Digests that differ in their first bytes; each is computed by itself. -/
theorem nodup_of_heads {messages : List (List UInt8)} (heads : List UInt8)
    (are : List.Forall₂ (fun message head => (sha256 message).head? = some head) messages heads) (apart : heads.Nodup) :
    (messages.map sha256).Nodup := by
  refine List.Nodup.of_map List.head? ?_
  have firsts : (messages.map sha256).map List.head? = heads.map some := by
    rw [List.map_map]
    induction are with
    | nil => rfl
    | cons first _ ih => exact congrArg₂ List.cons first (ih apart.of_cons)
  rw [firsts]
  exact apart.map (Option.some_injective _)

end StellarAlerts.Sha256
