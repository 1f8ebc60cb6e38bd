import StellarAlerts.Ipv6Text

/-!
The two filters for addresses that requests may not go to, one beside the fetch
client and one beside the webhooks. Both judge an IPv6 address by how its text begins,
so they judge its value only where the text is written in the usual way: `verdicts_iff`
says for every literal whether they do.
-/
namespace StellarAlerts.SsrfFilters
open HexText (toLowerCase hexDigit)
open IntegerText Ipv6Text

/-- A number from 0 to 255 without leading zeros. -/
def isOctet (word : List Char) : Bool :=
  isDigits (String.ofList word) && (word.length == 1 || word.head? != some '0') && decide (decimal (String.ofList word) ≤ 255)

/-- `net.isIPv4`. -/
def isIPv4 (ip : List Char) : Bool := (ip.splitOn '.').length == 4 && (ip.splitOn '.').all isOctet

/-- `(acc << 8) + parseInt(octet,10) >>> 0`, on a word of digits. -/
def shiftOctet (acc : Nat) (octet : List Char) : Nat := (acc * 256 + decimal (String.ofList octet)) % 2 ^ 32

def maskOf (bits : Nat) : Nat := if bits = 0 then 0 else 0xFFFFFFFF * 2 ^ (32 - bits) % 2 ^ 32

/-! ### The guard of the fetch client -/

def ip4ToLong (ip : List Char) : Nat := (ip.splitOn '.').foldl shiftOctet 0

def inIpv4Cidr (ip : List Char) (cidr : String) : Bool :=
  let range := (cidr.toList.splitOn '/').getD 0 []
  let prefixStr := (cidr.toList.splitOn '/').getD 1 []
  let mask := maskOf (decimal (String.ofList prefixStr))
  (ip4ToLong ip &&& mask) == (ip4ToLong range &&& mask)

def PRIVATE_IPV4_CIDRS : List String :=
  ["0.0.0.0/8","10.0.0.0/8","100.64.0.0/10","127.0.0.0/8","169.254.0.0/16","172.16.0.0/12","192.0.0.0/24",
    "192.0.2.0/24","192.168.0.0/16","198.18.0.0/15","198.51.100.0/24","203.0.113.0/24","224.0.0.0/4","240.0.0.0/4",
    "255.255.255.255/32"]

def isPrivateIpv4 (ip : List Char) : Bool := PRIVATE_IPV4_CIDRS.any (inIpv4Cidr ip)

/-- `ip.toLowerCase().trim()`. -/
def normalized (ip : String) : List Char := trim (toLowerCase ip).toList

def startsWithOneOf (ip : List Char) (starts : List String) : Bool := starts.any fun start => start.toList.isPrefixOf ip

def isPrivateIpv6 (ip : String) : Bool :=
  let normalized := normalized ip
  if normalized = "::1".toList ∨ normalized = "::".toList then true
  else if "::ffff:".toList.isPrefixOf normalized && isIPv4 (normalized.drop 7) then isPrivateIpv4 (normalized.drop 7)
  else if startsWithOneOf normalized ["fc","fd"] then true
  else if startsWithOneOf normalized ["fe8","fe9","fea","feb"] then true
  else startsWithOneOf normalized ["ff"]

/-! ### The firewall of the webhooks -/

def BLOCKED_IPV4_CIDRS : List String :=
  ["127.0.0.0/8","10.0.0.0/8","172.16.0.0/12","192.168.0.0/16","169.254.169.254/32","169.254.0.0/16","0.0.0.0/8",
    "100.64.0.0/10","192.0.0.0/24","192.0.2.0/24","198.18.0.0/15","198.51.100.0/24","203.0.113.0/24","224.0.0.0/4",
    "240.0.0.0/4","255.255.255.255/32"]

def ipv4ToUint32 (ip : List Char) : Nat :=
  if (ip.splitOn '.').length ≠ 4 then 0 else (ip.splitOn '.').foldl shiftOctet 0

def matchesIpv4Cidr (ip : List Char) (cidr : String) : Bool :=
  if !isIPv4 ip then false
  else
    let range := (cidr.toList.splitOn '/').getD 0 []
    let prefixStr := (cidr.toList.splitOn '/').getD 1 []
    let mask := maskOf (decimal (String.ofList prefixStr))
    (ipv4ToUint32 ip &&& mask) == (ipv4ToUint32 range &&& mask)

/-- A verdict, with the range that matched. -/
structure Verdict where
  blocked : Bool
  matched : Option String
deriving DecidableEq, Repr

def isBlockedIpv4 (ip : List Char) : Verdict :=
  match BLOCKED_IPV4_CIDRS.find? (matchesIpv4Cidr ip) with
  | some cidr => ⟨true,some cidr⟩
  | none => ⟨false,none⟩

/-- The ranges that are told by how the text begins. -/
def blockedStart (normalized : List Char) : Verdict :=
  if startsWithOneOf normalized ["fc","fd"] then ⟨true,some "fc00::/7"⟩
  else if startsWithOneOf normalized ["fe8","fe9","fea","feb"] then ⟨true,some "fe80::/10"⟩
  else if startsWithOneOf normalized ["ff"] then ⟨true,some "ff00::/8"⟩
  else ⟨false,none⟩

def isBlockedIpv6 (ip : String) : Verdict :=
  let normalized := normalized ip
  if normalized = "::1".toList ∨ normalized = "0:0:0:0:0:0:0:1".toList then ⟨true,some "::1/128"⟩
  else if normalized = "::".toList ∨ normalized = "0:0:0:0:0:0:0:0".toList then ⟨true,some "::/128"⟩
  else if "::ffff:".toList.isPrefixOf normalized && isIPv4 (normalized.drop 7) then
    match isBlockedIpv4 (normalized.drop 7) with
    | ⟨true,matchedCidr⟩ => ⟨true,matchedCidr.map ("::ffff:" ++ ·)⟩
    | ⟨false,_⟩ => blockedStart normalized
  else blockedStart normalized

/-! ### What is meant to be blocked -/

/-- The reserved ranges of IPv4: the octets of the first address and the leading bits. -/
def reservedIpv4 : List (List Nat × Nat) :=
  [([0,0,0,0],8),([10,0,0,0],8),([100,64,0,0],10),([127,0,0,0],8),([169,254,0,0],16),([172,16,0,0],12),([192,0,0,0],24),
    ([192,0,2,0],24),([192,168,0,0],16),([198,18,0,0],15),([198,51,100,0],24),([203,0,113,0],24),([224,0,0,0],4),
    ([240,0,0,0],4),([255,255,255,255],32)]

def InRange (address : Nat) (range : List Nat × Nat) : Prop :=
  address / 2 ^ (32 - range.2) = DigitGroups.value 256 range.1 / 2 ^ (32 - range.2)

instance (address : Nat) (range : List Nat × Nat) : Decidable (InRange address range) := inferInstanceAs (Decidable (_ = _))

def BlockedIpv4 (address : Nat) : Prop := ∃ range ∈ reservedIpv4, InRange address range

/-- An IPv4-mapped address whose IPv4 part is blocked. -/
structure MappedBlocked (address : Nat) : Prop where
  mapped : address / 2 ^ 32 = 0xffff
  blocked : BlockedIpv4 (address % 2 ^ 32)

/-- `fc00::/7`, `fe80::/10` and `ff00::/8`. -/
def ReservedStart (address : Nat) : Prop :=
  address / 2 ^ 121 = 0xfc00 / 2 ^ 9 ∨ address / 2 ^ 118 = 0xfe80 / 2 ^ 6 ∨ address / 2 ^ 120 = 0xff00 / 2 ^ 8

/-- The addresses of 128 bits that are meant to be blocked, with the unspecified one and the loopback. -/
def BlockedIpv6 (address : Nat) : Prop := address = 0 ∨ address = 1 ∨ ReservedStart address ∨ MappedBlocked address

/-! ### Addresses of IPv4 -/

theorem and_maskOf {n bits : Nat} (small : n < 2 ^ 32) (most : bits ≤ 32) :
    n &&& maskOf bits = n / 2 ^ (32 - bits) * 2 ^ (32 - bits) := by
  by_cases zero : bits = 0
  · rw [maskOf,if_pos zero,zero,Nat.and_zero,Nat.div_eq_of_lt small,Nat.zero_mul]
  rw [maskOf,if_neg zero]
  apply Nat.eq_of_testBit_eq
  intro i
  rw [Nat.testBit_and,Nat.testBit_mod_two_pow,Nat.testBit_mul_two_pow,Nat.testBit_mul_two_pow,Nat.testBit_div_two_pow,
    show 0xFFFFFFFF = 2 ^ 32 - 1 from rfl,Nat.testBit_two_pow_sub_one]
  by_cases high : 32 ≤ i
  · have off : n.testBit i = false := Nat.testBit_lt_two_pow (Nat.lt_of_lt_of_le small (Nat.pow_le_pow_right (by decide) high))
    by_cases above : 32 - bits ≤ i
    · rw [Nat.sub_add_cancel above,off]
      simp
    · omega
  · by_cases above : 32 - bits ≤ i
    · have inside : i - (32 - bits) < 32 := by omega
      simp [above,inside,Nat.lt_of_not_le high,Nat.sub_add_cancel above]
    · simp [above]

theorem same_masked_iff {n m bits : Nat} (smallN : n < 2 ^ 32) (smallM : m < 2 ^ 32) (most : bits ≤ 32) :
    n &&& maskOf bits = m &&& maskOf bits ↔ n / 2 ^ (32 - bits) = m / 2 ^ (32 - bits) := by
  rw [and_maskOf smallN most,and_maskOf smallM most]
  exact ⟨fun same => Nat.eq_of_mul_eq_mul_right (Nat.two_pow_pos _) same,fun same => by rw [same]⟩

theorem octet_text : ∀ n : Fin 256, isOctet (toString n.val).toList = true := by decide +kernel

theorem isIPv4_quad (quad : Quad) : isIPv4 quad.text = true := by
  simp only [isIPv4,quad_split,Quad.octets,List.map_cons,List.map_nil,List.all_cons,List.all_nil,octet_text]
  rfl

theorem isIPv4_chars {ip : List Char} (accepted : isIPv4 ip = true) : '.' ∈ ip ∧ ':' ∉ ip := by
  simp only [isIPv4,Bool.and_eq_true,beq_iff_eq,List.all_eq_true] at accepted
  obtain ⟨four,octets⟩ := accepted
  constructor
  · by_contra absent
    rw [List.splitOn_eq_singleton absent] at four
    simp at four
  · intro colon
    have whole : ['.'].intercalate (ip.splitOn '.') = ip := List.intercalate_splitOn '.'
    rw [← whole] at colon
    rcases SeparatedText.mem_intercalate colon with dot | ⟨word,listed,inside⟩
    · exact absurd dot (by decide)
    · have digits := octets word listed
      simp only [isOctet,Bool.and_eq_true] at digits
      have digit := (isDigits_iff.mp digits.1.1).2 ':' (by simpa using inside)
      exact absurd digit (by decide)

theorem ip4ToLong_quad (quad : Quad) : ip4ToLong quad.text = quad.value := by
  have value : ∀ n : Nat, decimal (String.ofList (toString n).toList) = n := by
    intro n
    rw [String.ofList_toList,(decimal_toString n).2]
  simp only [ip4ToLong,quad_split,Quad.octets,List.map_cons,List.map_nil,List.foldl_cons,List.foldl_nil,shiftOctet,value,
    Quad.value,DigitGroups.value]
  omega

theorem quad_value_lt (quad : Quad) : quad.value < 2 ^ 32 := by
  simp only [Quad.value,Quad.octets,DigitGroups.value,List.foldl_cons,List.foldl_nil]
  omega

def cidrText (range : List Nat × Nat) : String :=
  String.ofList (['.'].intercalate (range.1.map fun n => (toString n).toList)) ++ "/" ++ toString range.2

def blockedRanges : List (List Nat × Nat) :=
  [([127,0,0,0],8),([10,0,0,0],8),([172,16,0,0],12),([192,168,0,0],16),([169,254,169,254],32),([169,254,0,0],16),([0,0,0,0],8),
    ([100,64,0,0],10),([192,0,0,0],24),([192,0,2,0],24),([198,18,0,0],15),([198,51,100,0],24),([203,0,113,0],24),([224,0,0,0],4),
    ([240,0,0,0],4),([255,255,255,255],32)]

theorem private_ranges : PRIVATE_IPV4_CIDRS = reservedIpv4.map cidrText := by decide +kernel
theorem blocked_ranges : BLOCKED_IPV4_CIDRS = blockedRanges.map cidrText := by decide +kernel

theorem cidr_parsed : ∀ range ∈ blockedRanges,
    ip4ToLong (((cidrText range).toList.splitOn '/').getD 0 []) = DigitGroups.value 256 range.1 ∧
      (((cidrText range).toList.splitOn '/').getD 0 []).splitOn '.' = range.1.map (fun n => (toString n).toList) ∧
      decimal (String.ofList (((cidrText range).toList.splitOn '/').getD 1 [])) = range.2 ∧
      DigitGroups.value 256 range.1 < 2 ^ 32 ∧ range.2 ≤ 32 ∧ range.1.length = 4 := by decide +kernel

theorem reserved_blocked : ∀ range ∈ reservedIpv4, range ∈ blockedRanges := by decide

theorem inIpv4Cidr_iff (quad : Quad) {range : List Nat × Nat} (listed : range ∈ blockedRanges) :
    inIpv4Cidr quad.text (cidrText range) = true ↔ InRange quad.value range := by
  obtain ⟨address,_,bits,small,most,_⟩ := cidr_parsed range listed
  simp only [inIpv4Cidr,address,bits,ip4ToLong_quad,beq_iff_eq]
  exact same_masked_iff (quad_value_lt quad) small most

theorem ipv4ToUint32_four {ip : List Char} (four : (ip.splitOn '.').length = 4) : ipv4ToUint32 ip = ip4ToLong ip := by
  simp [ipv4ToUint32,ip4ToLong,four]

theorem matchesIpv4Cidr_iff (quad : Quad) {range : List Nat × Nat} (listed : range ∈ blockedRanges) :
    matchesIpv4Cidr quad.text (cidrText range) = true ↔ InRange quad.value range := by
  obtain ⟨_,split,_,_,_,four⟩ := cidr_parsed range listed
  have fourQuad : (quad.text.splitOn '.').length = 4 := by simp [quad_split,Quad.octets]
  have fourRange : ((((cidrText range).toList.splitOn '/').getD 0 []).splitOn '.').length = 4 := by
    rw [split,List.length_map,four]
  rw [← inIpv4Cidr_iff quad listed]
  simp only [matchesIpv4Cidr,inIpv4Cidr,isIPv4_quad,ipv4ToUint32_four fourQuad,ipv4ToUint32_four fourRange,Bool.not_true,
    Bool.false_eq_true,↓reduceIte]

theorem isPrivateIpv4_quad (quad : Quad) : isPrivateIpv4 quad.text = true ↔ BlockedIpv4 quad.value := by
  rw [isPrivateIpv4,private_ranges,List.any_map,List.any_eq_true]
  constructor
  · rintro ⟨range,listed,inside⟩
    exact ⟨range,listed,(inIpv4Cidr_iff quad (reserved_blocked range listed)).mp inside⟩
  · rintro ⟨range,listed,inside⟩
    exact ⟨range,listed,(inIpv4Cidr_iff quad (reserved_blocked range listed)).mpr inside⟩

theorem blockedRanges_iff (address : Nat) : (∃ range ∈ blockedRanges, InRange address range) ↔ BlockedIpv4 address := by
  constructor
  · rintro ⟨range,listed,inside⟩
    have known : ∀ range ∈ blockedRanges, range ∈ reservedIpv4 ∨ range = ([169,254,169,254],32) := by decide
    rcases known range listed with reserved | rfl
    · exact ⟨range,reserved,inside⟩
    · refine ⟨([169,254,0,0],16),by decide,?_⟩
      simp only [InRange,DigitGroups.value,List.foldl_cons,List.foldl_nil] at inside ⊢
      omega
  · rintro ⟨range,reserved,inside⟩
    exact ⟨range,reserved_blocked range reserved,inside⟩

theorem isBlockedIpv4_quad (quad : Quad) : (isBlockedIpv4 quad.text).blocked = true ↔ BlockedIpv4 quad.value := by
  rw [← blockedRanges_iff]
  unfold isBlockedIpv4
  cases found : BLOCKED_IPV4_CIDRS.find? (matchesIpv4Cidr quad.text) with
  | none =>
    simp only [Bool.false_eq_true,false_iff,not_exists,not_and]
    intro range listed inside
    have missed := List.find?_eq_none.mp found (cidrText range) (by rw [blocked_ranges]; exact List.mem_map_of_mem listed)
    exact missed ((matchesIpv4Cidr_iff quad listed).mpr inside)
  | some cidr =>
    simp only [true_iff]
    have listed := List.mem_of_find?_eq_some found
    rw [blocked_ranges] at listed
    obtain ⟨range,member,rfl⟩ := List.mem_map.mp listed
    exact ⟨range,member,(matchesIpv4Cidr_iff quad member).mp (List.find?_some found)⟩

/-! ### What the filters catch -/

/-- The starts that both filters look for. -/
def starts : List String := ["fc","fd","fe8","fe9","fea","feb","ff"]

theorem startsWithOneOf_starts (text : List Char) :
    startsWithOneOf text starts =
      (startsWithOneOf text ["fc","fd"] || startsWithOneOf text ["fe8","fe9","fea","feb"] || startsWithOneOf text ["ff"]) := by
  simp only [startsWithOneOf,starts,List.any_cons,List.any_nil,Bool.or_false,Bool.or_assoc]

theorem startsWithOneOf_colon (rest : List Char) : startsWithOneOf (':' :: rest) starts = false := rfl

/-- The texts, in lower case, that both filters catch. -/
def Caught (text : List Char) : Prop :=
  text = "::".toList ∨ text = "::1".toList ∨ (∃ quad : Quad, text = "::ffff:".toList ++ quad.text ∧ BlockedIpv4 quad.value) ∨
    startsWithOneOf text starts = true

theorem normalized_text (literal : Literal) : normalized (String.ofList literal.text) = literal.lower.text := by
  have visible := literal.lower.text_visible
  rw [normalized,toLowerCase,String.toList_ofList,String.toList_ofList,← Literal.lower_text]
  apply trim_kept
  · intro c head
    exact visible c (List.mem_of_mem_head? head)
  · intro c last
    exact visible c (List.mem_of_mem_getLast? last)

theorem drop_mapped (rest : List Char) : ("::ffff:".toList ++ rest).drop 7 = rest := rfl

theorem mapped_text (literal : Literal) :
    ("::ffff:".toList.isPrefixOf literal.text && isIPv4 (literal.text.drop 7)) = true ↔
      ∃ quad : Quad, literal.text = "::ffff:".toList ++ quad.text := by
  rw [Bool.and_eq_true,List.isPrefixOf_iff_prefix]
  constructor
  · rintro ⟨⟨rest,begins⟩,accepted⟩
    rw [← begins,drop_mapped] at accepted
    obtain ⟨dot,colon⟩ := isIPv4_chars accepted
    obtain ⟨quad,rfl,_⟩ := @value_of_quad literal "ffff".toList rest begins.symm ⟨by decide,colon⟩ dot
    exact ⟨quad,begins.symm⟩
  · rintro ⟨quad,textIs⟩
    rw [textIs,drop_mapped]
    exact ⟨⟨quad.text,rfl⟩,isIPv4_quad quad⟩

variable {literal : Literal}

theorem mapped_value {quad : Quad} (textIs : literal.text = "::ffff:".toList ++ quad.text) :
    literal.value = 0xffff * 2 ^ 32 + quad.value := by
  obtain ⟨dot,colon⟩ := isIPv4_chars (isIPv4_quad quad)
  obtain ⟨other,same,valueIs⟩ := @value_of_quad literal "ffff".toList quad.text textIs ⟨by decide,colon⟩ dot
  rw [valueIs,← ip4ToLong_quad other,← same,ip4ToLong_quad]
  rfl

theorem isPrivateIpv6_iff (literal : Literal) :
    isPrivateIpv6 (String.ofList literal.text) = true ↔ Caught literal.lower.text := by
  simp only [isPrivateIpv6,normalized_text,Caught]
  generalize textIs : literal.lower.text = text
  have mapped := mapped_text literal.lower
  rw [textIs] at mapped
  by_cases special : text = "::1".toList ∨ text = "::".toList
  · rw [if_pos special]
    simp only [true_iff]
    exact special.elim (fun one => .inr (.inl one)) .inl
  rw [if_neg special]
  obtain ⟨notOne,notZero⟩ := not_or.mp special
  by_cases quads : ∃ quad : Quad, text = "::ffff:".toList ++ quad.text
  · rw [if_pos (mapped.mpr quads)]
    obtain ⟨quad,rfl⟩ := quads
    rw [drop_mapped,isPrivateIpv4_quad]
    constructor
    · intro blocked
      exact .inr (.inr (.inl ⟨quad,rfl,blocked⟩))
    · rintro (zero | one | ⟨other,same,blocked⟩ | begins)
      · exact absurd zero notZero
      · exact absurd one notOne
      · rw [← ip4ToLong_quad,List.append_cancel_left same,ip4ToLong_quad]
        exact blocked
      · rw [show startsWithOneOf ("::ffff:".toList ++ quad.text) starts = false from startsWithOneOf_colon _] at begins
        cases begins
  · rw [if_neg (fun accepted => quads (mapped.mp accepted)),startsWithOneOf_starts]
    have none_ : ¬ ∃ quad : Quad, text = "::ffff:".toList ++ quad.text ∧ BlockedIpv4 quad.value :=
      fun ⟨quad,same,_⟩ => quads ⟨quad,same⟩
    simp only [notZero,notOne,none_,false_or]
    cases startsWithOneOf text ["fc","fd"] <;> cases startsWithOneOf text ["fe8","fe9","fea","feb"] <;> simp

theorem blockedStart_blocked (text : List Char) : (blockedStart text).blocked = startsWithOneOf text starts := by
  rw [startsWithOneOf_starts,blockedStart]
  cases startsWithOneOf text ["fc","fd"] <;> cases startsWithOneOf text ["fe8","fe9","fea","feb"] <;>
    cases startsWithOneOf text ["ff"] <;> rfl

theorem isBlockedIpv6_iff (literal : Literal) :
    (isBlockedIpv6 (String.ofList literal.text)).blocked = true ↔
      Caught literal.lower.text ∨ literal.lower.text = "0:0:0:0:0:0:0:0".toList ∨
        literal.lower.text = "0:0:0:0:0:0:0:1".toList := by
  rw [← isPrivateIpv6_iff]
  simp only [isBlockedIpv6,isPrivateIpv6,normalized_text]
  generalize textIs : literal.lower.text = text
  have mapped := mapped_text literal.lower
  rw [textIs] at mapped
  by_cases one : text = "::1".toList
  · simp [one]
  by_cases zero : text = "::".toList
  · simp [zero]
  by_cases one' : text = "0:0:0:0:0:0:0:1".toList
  · simp [one']
  by_cases zero' : text = "0:0:0:0:0:0:0:0".toList
  · simp [zero']
  simp only [one,zero,one',zero',or_self,or_false,↓reduceIte]
  by_cases quads : ∃ quad : Quad, text = "::ffff:".toList ++ quad.text
  · rw [if_pos (mapped.mpr quads),if_pos (mapped.mpr quads)]
    obtain ⟨quad,rfl⟩ := quads
    have colons : startsWithOneOf ("::ffff:".toList ++ quad.text) starts = false := startsWithOneOf_colon _
    rw [drop_mapped,isPrivateIpv4_quad,← isBlockedIpv4_quad]
    cases isBlockedIpv4 quad.text with
    | mk blocked cidr =>
      cases blocked with
      | false => simp only [blockedStart_blocked,colons]
      | true => simp
  · rw [if_neg (fun accepted => quads (mapped.mp accepted)),if_neg (fun accepted => quads (mapped.mp accepted)),
      blockedStart_blocked,startsWithOneOf_starts]
    cases startsWithOneOf text ["fc","fd"] <;> cases startsWithOneOf text ["fe8","fe9","fea","feb"] <;> simp

/-! ### What the first group tells -/

def startDigits : List (List Nat) := [[15,12],[15,13],[15,14,8],[15,14,9],[15,14,10],[15,14,11],[15,15]]

theorem isPrefixOf_cut {start : List Char} (plain : ':' ∉ start) (word rest : List Char) :
    start.isPrefixOf (word ++ ':' :: rest) = start.isPrefixOf word := by
  induction start generalizing word with
  | nil => rfl
  | cons c start ih =>
    cases word with
    | nil =>
      have other : (c == ':') = false := beq_eq_false_iff_ne.mpr fun same => plain (same ▸ List.mem_cons_self ..)
      simp [List.isPrefixOf,other]
    | cons d word =>
      simp only [List.cons_append,List.isPrefixOf]
      rw [ih (List.not_mem_of_not_mem_cons plain)]

theorem startsWithOneOf_first :
    startsWithOneOf literal.text starts = true ↔ ∃ group, literal.first = some group ∧ startsWithOneOf group.digits starts = true := by
  cases first : literal.first with
  | none =>
    obtain ⟨after,quad,count,rfl⟩ := Literal.first_none first
    rw [show (Literal.compressed [] after quad count).text = ':' :: ':' :: joined (parts after quad) from rfl,
      startsWithOneOf_colon]
    simp
  | some group =>
    obtain ⟨rest,textIs⟩ := Literal.text_first first
    have plain : ∀ start ∈ starts, ':' ∉ start.toList := by decide
    have same : startsWithOneOf literal.text starts = startsWithOneOf group.digits starts := by
      rw [textIs,startsWithOneOf,startsWithOneOf,Bool.eq_iff_iff,List.any_eq_true,List.any_eq_true]
      constructor
      · rintro ⟨start,listed,begins⟩
        exact ⟨start,listed,by rwa [isPrefixOf_cut (plain start listed)] at begins⟩
      · rintro ⟨start,listed,begins⟩
        exact ⟨start,listed,by rwa [isPrefixOf_cut (plain start listed)]⟩
    simp [same]

theorem isPrefixOf_digits {a b : List Nat} (smallA : ∀ n ∈ a, n < 16) (smallB : ∀ n ∈ b, n < 16) :
    (a.map hexDigit).isPrefixOf (b.map hexDigit) = a.isPrefixOf b := by
  have apart : ∀ n < 16, ∀ m < 16, (hexDigit n == hexDigit m) = (n == m) := by decide
  induction a generalizing b with
  | nil => rfl
  | cons n a ih =>
    cases b with
    | nil => rfl
    | cons m b =>
      simp only [List.map_cons,List.isPrefixOf]
      rw [apart n (smallA n (by simp)) m (smallB m (by simp)),
        ih (fun k listed => smallA k (by simp [listed])) (fun k listed => smallB k (by simp [listed]))]

theorem startsWithOneOf_lower (group : Group) :
    startsWithOneOf group.lower.digits starts = startDigits.any fun start => start.isPrefixOf (group.digits.map hexValue) := by
  have digits : group.lower.digits = (group.digits.map hexValue).map hexDigit := by
    rw [List.map_map]
    apply List.map_congr_left
    intro c listed
    exact (hex_toLower (group.hex c listed)).1
  have texts : starts.map String.toList = startDigits.map (List.map hexDigit) := by decide
  have small : ∀ n ∈ group.digits.map hexValue, n < 16 := by
    intro n listed
    obtain ⟨c,_,rfl⟩ := List.mem_map.mp listed
    exact hexValue_lt c
  have smallStarts : ∀ start ∈ startDigits, ∀ n ∈ start, n < 16 := by decide
  have asTexts : startsWithOneOf group.lower.digits starts =
      (starts.map String.toList).any fun start => start.isPrefixOf group.lower.digits := by rw [List.any_map]; rfl
  rw [asTexts,texts,List.any_map,digits,Bool.eq_iff_iff,List.any_eq_true,List.any_eq_true]
  constructor
  · rintro ⟨start,listed,begins⟩
    exact ⟨start,listed,by rwa [Function.comp_apply,isPrefixOf_digits (smallStarts start listed) small] at begins⟩
  · rintro ⟨start,listed,begins⟩
    exact ⟨start,listed,by rwa [Function.comp_apply,isPrefixOf_digits (smallStarts start listed) small]⟩

/-- The first group of an address in one of the ranges. -/
def ReservedGroup (number : Nat) : Prop := number / 512 = 126 ∨ number / 64 = 1018 ∨ number / 256 = 255

theorem reservedStart_iff (address : Nat) : ReservedStart address ↔ ReservedGroup (address / 65536 ^ 7) := by
  rw [ReservedStart,ReservedGroup,Nat.div_div_eq_div_mul,Nat.div_div_eq_div_mul,Nat.div_div_eq_div_mul]
  exact Iff.rfl

theorem startsWithOneOf_four {group : Group} (four : group.digits.length = 4) :
    startsWithOneOf group.lower.digits starts = true ↔ ReservedGroup group.value := by
  rw [startsWithOneOf_lower]
  obtain ⟨a,b,c,d,digits⟩ : ∃ a b c d, group.digits = [a,b,c,d] := List.length_eq_four.mp four
  have smallA := hexValue_lt a
  have smallB := hexValue_lt b
  have smallC := hexValue_lt c
  have smallD := hexValue_lt d
  have value : group.value = ((hexValue a * 16 + hexValue b) * 16 + hexValue c) * 16 + hexValue d := by
    rw [Group.value,digits]
    simp [wordValue,DigitGroups.value]
  have two : group.value / 512 = 126 ↔ 15 = hexValue a ∧ (12 = hexValue b ∨ 13 = hexValue b) := by omega
  have three : group.value / 64 = 1018 ↔
      15 = hexValue a ∧ 14 = hexValue b ∧ (8 = hexValue c ∨ 9 = hexValue c ∨ 10 = hexValue c ∨ 11 = hexValue c) := by omega
  have last : group.value / 256 = 255 ↔ 15 = hexValue a ∧ 15 = hexValue b := by omega
  rw [ReservedGroup,two,three,last,digits]
  simp only [List.map_cons,List.map_nil,startDigits,List.any_cons,List.any_nil,List.isPrefixOf,Bool.or_eq_true,
    Bool.and_eq_true,beq_iff_eq,Bool.or_false,Bool.and_true,and_or_left,or_assoc]

theorem startsWithOneOf_positive {group : Group} (begins : startsWithOneOf group.lower.digits starts = true) : 0 < group.value := by
  rw [startsWithOneOf_lower,List.any_eq_true] at begins
  obtain ⟨start,listed,isStart⟩ := begins
  have fifteen : ∀ start ∈ startDigits, start.head? = some 15 := by decide
  obtain ⟨rest,startIs⟩ := List.head?_eq_some_iff.mp (fifteen start listed)
  obtain ⟨more,digits⟩ := List.isPrefixOf_iff_prefix.mp isStart
  rw [startIs,List.cons_append] at digits
  rw [Group.value,wordValue,← digits,DigitGroups.value_cons]
  have power : 0 < 16 ^ (rest ++ more).length := Nat.pow_pos (by decide)
  omega

theorem short_not_reserved {group : Group} (short : group.digits.length < 4) : ¬ ReservedGroup group.value := by
  have below := wordValue_lt group.digits
  have most : 16 ^ group.digits.length ≤ 16 ^ 3 := Nat.pow_le_pow_right (by decide) (by omega)
  have small : group.value < 4096 := Nat.lt_of_lt_of_le below most
  rw [ReservedGroup]
  omega

/-! ### The verdicts -/

/-- A literal that is written in the usual way where it matters: the unspecified address as `::`, the loopback as `::1`, a mapped
    address that is to be blocked as `::ffff:` with a quad, and a first group with one of the starts with all its four digits. -/
structure Usual (literal : Literal) : Prop where
  unspecified : literal.value = 0 → literal.lower.text = "::".toList
  loopback : literal.value = 1 → literal.lower.text = "::1".toList
  mapped : MappedBlocked literal.value → ∃ quad : Quad, literal.lower.text = "::ffff:".toList ++ quad.text
  first : ∀ group, literal.first = some group → startsWithOneOf group.lower.digits starts = true → group.digits.length = 4

theorem lower_startsWith (literal : Literal) :
    startsWithOneOf literal.lower.text starts = true ↔
      ∃ group, literal.first = some group ∧ startsWithOneOf group.lower.digits starts = true := by
  rw [startsWithOneOf_first,Literal.lower_first]
  cases literal.first with
  | none => simp
  | some group => simp

theorem first_value {group : Group} (first : literal.first = some group) : literal.value / 65536 ^ 7 = group.value := by
  rw [literal.value_div,first]
  rfl

theorem caught_cases (caught : Caught literal.lower.text) :
    (literal.lower.text = "::".toList ∧ literal.value = 0) ∨ (literal.lower.text = "::1".toList ∧ literal.value = 1) ∨
      (∃ quad : Quad, literal.lower.text = "::ffff:".toList ++ quad.text ∧ BlockedIpv4 quad.value ∧
        literal.value = 0xffff * 2 ^ 32 + quad.value) ∨
      ∃ group, literal.first = some group ∧ startsWithOneOf group.lower.digits starts = true ∧ 65536 ^ 7 ≤ literal.value := by
  rw [← literal.lower_value]
  rcases caught with zero | one | ⟨quad,textIs,blocked⟩ | begins
  · exact .inl ⟨zero,@value_of_word literal.lower [] zero (by decide) (by decide)⟩
  · exact .inr (.inl ⟨one,@value_of_word literal.lower ['1'] one (by decide) (by decide)⟩)
  · exact .inr (.inr (.inl ⟨quad,textIs,blocked,mapped_value textIs⟩))
  · obtain ⟨group,first,starting⟩ := (lower_startsWith literal).mp begins
    refine .inr (.inr (.inr ⟨group,first,starting,?_⟩))
    rw [literal.lower_value]
    apply Nat.le_of_not_lt
    intro small
    have top := first_value first
    rw [Nat.div_eq_of_lt small] at top
    have positive := startsWithOneOf_positive starting
    omega

theorem caught_blocked (caught : Caught literal.lower.text)
    (four : ∀ group, literal.first = some group → startsWithOneOf group.lower.digits starts = true → group.digits.length = 4) :
    BlockedIpv6 literal.value := by
  rcases caught_cases caught with ⟨_,zero⟩ | ⟨_,one⟩ | ⟨quad,_,blocked,valueIs⟩ | ⟨group,first,starting,_⟩
  · exact .inl zero
  · exact .inr (.inl one)
  · have small := quad_value_lt quad
    have part : literal.value % 2 ^ 32 = quad.value := by omega
    exact .inr (.inr (.inr ⟨by omega,part ▸ blocked⟩))
  · refine .inr (.inr (.inl ?_))
    rw [reservedStart_iff,first_value first]
    exact (startsWithOneOf_four (four group first starting)).mp starting

theorem expanded_value {last : Char} (digit : last = '0' ∨ last = '1')
    (textIs : literal.text = joined [['0'],['0'],['0'],['0'],['0'],['0'],['0'],[last]]) :
    literal.value = wordValue [last] := by
  rcases digit with rfl | rfl
  · exact value_of_eight textIs rfl (by decide)
  · exact value_of_eight textIs rfl (by decide)

theorem blocked_caught (usual : Usual literal) (blocked : BlockedIpv6 literal.value) : Caught literal.lower.text := by
  rcases blocked with zero | one | reserved | mapped
  · exact .inl (usual.unspecified zero)
  · exact .inr (.inl (usual.loopback one))
  · rw [reservedStart_iff] at reserved
    cases first : literal.first with
    | none =>
      rw [literal.value_div,first] at reserved
      exact absurd reserved (by simp [ReservedGroup])
    | some group =>
      rw [first_value first] at reserved
      have four : group.digits.length = 4 := by
        by_contra short
        exact short_not_reserved (by have := group.length.2; omega) reserved
      exact .inr (.inr (.inr ((lower_startsWith literal).mpr ⟨group,first,(startsWithOneOf_four four).mpr reserved⟩)))
  · obtain ⟨quad,textIs⟩ := usual.mapped mapped
    refine .inr (.inr (.inl ⟨quad,textIs,?_⟩))
    have valueIs := mapped_value textIs
    rw [literal.lower_value] at valueIs
    have small := quad_value_lt quad
    have part : literal.value % 2 ^ 32 = quad.value := by omega
    exact part ▸ mapped.blocked

theorem short_caught {group : Group} (first : literal.first = some group)
    (starting : startsWithOneOf group.lower.digits starts = true) (short : group.digits.length < 4) :
    Caught literal.lower.text ∧ ¬ BlockedIpv6 literal.value := by
  refine ⟨.inr (.inr (.inr ((lower_startsWith literal).mpr ⟨group,first,starting⟩))),?_⟩
  have top := first_value first
  have positive := startsWithOneOf_positive starting
  rintro (zero | one | reserved | mapped)
  · omega
  · omega
  · rw [reservedStart_iff,top] at reserved
    exact short_not_reserved short reserved
  · have bits := mapped.mapped
    omega

theorem usual_of_exact (exact_ : Caught literal.lower.text ↔ BlockedIpv6 literal.value) : Usual literal := by
  refine ⟨?_,?_,?_,?_⟩
  · intro zero
    rcases caught_cases (exact_.mpr (.inl zero)) with ⟨textIs,_⟩ | ⟨_,one⟩ | ⟨quad,_,_,valueIs⟩ | ⟨_,_,_,large⟩
    · exact textIs
    · omega
    · omega
    · omega
  · intro one
    rcases caught_cases (exact_.mpr (.inr (.inl one))) with ⟨_,zero⟩ | ⟨textIs,_⟩ | ⟨quad,_,_,valueIs⟩ | ⟨_,_,_,large⟩
    · omega
    · exact textIs
    · omega
    · omega
  · intro mapped
    have bits := mapped.mapped
    rcases caught_cases (exact_.mpr (.inr (.inr (.inr mapped)))) with ⟨_,zero⟩ | ⟨_,one⟩ | ⟨quad,textIs,_⟩ | ⟨_,_,_,large⟩
    · omega
    · omega
    · exact ⟨quad,textIs⟩
    · omega
  · intro group first starting
    have most := group.length.2
    by_contra short
    obtain ⟨caught,passes⟩ := short_caught first starting (by omega)
    exact passes (exact_.mp caught)

theorem exact_of_usual (usual : Usual literal) : Caught literal.lower.text ↔ BlockedIpv6 literal.value :=
  ⟨fun caught => caught_blocked caught usual.first,blocked_caught usual⟩

/-- The two filters judge the value of an address exactly where it is written in the usual way. -/
theorem verdicts_iff (literal : Literal) :
    ((isPrivateIpv6 (String.ofList literal.text) = true ↔ BlockedIpv6 literal.value) ∧
        ((isBlockedIpv6 (String.ofList literal.text)).blocked = true ↔ BlockedIpv6 literal.value)) ↔
      Usual literal := by
  rw [isPrivateIpv6_iff,isBlockedIpv6_iff]
  constructor
  · rintro ⟨exact_,_⟩
    exact usual_of_exact exact_
  · intro usual
    have same := exact_of_usual usual
    refine ⟨same,?_⟩
    rw [same]
    constructor
    · rintro (blocked | zero | one)
      · exact blocked
      · left
        rw [← literal.lower_value]
        exact expanded_value (.inl rfl) zero
      · right
        left
        rw [← literal.lower_value]
        exact expanded_value (.inr rfl) one
    · exact .inl

/-- The loopback in hexadecimal, `::ffff:7f00:1`. -/
def mappedLoopback : Literal :=
  .compressed [] [⟨"ffff".toList,by decide,List.all_iff_forall_prop.mp (by decide)⟩,
    ⟨"7f00".toList,by decide,List.all_iff_forall_prop.mp (by decide)⟩,
    ⟨"1".toList,by decide,List.all_iff_forall_prop.mp (by decide)⟩] none (by decide)

/-- Both filters let the IPv4-mapped loopback pass in hexadecimal. -/
theorem mapped_loopback_passes :
    String.ofList mappedLoopback.text = "::ffff:7f00:1" ∧ BlockedIpv6 mappedLoopback.value ∧
      isPrivateIpv6 "::ffff:7f00:1" = false ∧ (isBlockedIpv6 "::ffff:7f00:1").blocked = false := by
  have mapped : MappedBlocked mappedLoopback.value := ⟨by decide,([127,0,0,0],8),by decide,by decide⟩
  exact ⟨by decide,.inr (.inr (.inr mapped)),by decide +kernel,by decide +kernel⟩

end StellarAlerts.SsrfFilters

