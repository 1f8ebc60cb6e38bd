import StellarAlerts.DateTexts
import StellarAlerts.Histories
import StellarAlerts.OrderedMaps

/-!
The profiles of the command line and their secrets: a file that lists the profiles, and
a sealed vault whose entries go by their names. Each operation runs in a process of its
own, as commands do: what it writes to an object that all objects inherit from ends with
it.
-/
namespace StellarAlerts.ProfileStore
open DateTexts Histories OrderedMaps

/-! ### Objects -/

/-- The properties that every object inherits. -/
def inheritedNames : List String :=
  ["constructor","__defineGetter__","__defineSetter__","hasOwnProperty","__lookupGetter__","__lookupSetter__","isPrototypeOf",
    "propertyIsEnumerable","toString","valueOf","__proto__","toLocaleString"]

/-- What `object[name]` is. -/
inductive Property (α : Type) where
  | undefined
  | own (value : α)
  | inherited
deriving DecidableEq

def property {α : Type} (object : OrderedMap String α) (name : String) : Property α :=
  match object.get name with
  | some value => .own value
  | none => if name ∈ inheritedNames then .inherited else .undefined

/-- `object[name] = value`, which makes no property of the name of the prototype. -/
def assign {α : Type} (object : OrderedMap String α) (name : String) (value : α) : OrderedMap String α :=
  if name = "__proto__" then object else object.set name value

def arrayIndex (name : String) : Option Nat :=
  let digits := name.toList
  let value := digits.foldl (fun n c => 10 * n + (c.toNat - '0'.toNat)) 0
  if digits ≠ [] ∧ digits.all Char.isDigit ∧ (digits.head? = some '0' → digits = ['0']) ∧ value < 4294967295 then some value
  else none

/-- `Object.keys`: indices first, in their order. -/
def objectKeys {α : Type} (object : OrderedMap String α) : List String :=
  (object.keys.filter fun name => (arrayIndex name).isSome).mergeSort (fun a b => (arrayIndex a).getD 0 ≤ (arrayIndex b).getD 0) ++
    object.keys.filter fun name => (arrayIndex name).isNone

/-! ### Files -/

inductive ProfileErrorCode where
  | PROFILE_NOT_FOUND
  | PROFILE_ALREADY_EXISTS
  | INVALID_PROFILE_NAME
  | VAULT_NOT_FOUND
  | VAULT_WRONG_PASSWORD
  | VAULT_CORRUPTED
  | VAULT_INVALID_METADATA
  | CONFIG_READ_ERROR
deriving DecidableEq, Repr

structure ProfileError where
  code : ProfileErrorCode
  message : String
deriving DecidableEq, Repr

def isValidProfileName (name : String) : Bool :=
  1 ≤ name.toList.length && name.toList.length ≤ 64 && name.toList.all fun c => c.isAlphanum || c = '_' || c = '-'

/-- What is not there is not written to the file. -/
structure ProfileConfig where
  name : String
  network : Option String
  apiUrl : Option String
  logLevel : Option String
  createdAt : Option String
  updatedAt : String
  hasSecrets : Option Bool
deriving DecidableEq, Repr

structure ProfilesFile where
  activeProfile : Option String
  profiles : OrderedMap String ProfileConfig

structure ProfileSecrets where
  apiKey : Option String
  extra : Option (OrderedMap String String)

structure VaultPayload where
  secrets : OrderedMap String ProfileSecrets

def emptyVaultPayload : VaultPayload := ⟨.empty⟩

/-- All vaults are written in one version, with Argon2id and its default parameters. -/
structure VaultFile (Ciphertext : Type) where
  salt : List UInt8
  nonce : List UInt8
  authTag : List UInt8
  ciphertext : Ciphertext

def SALT_BYTES : Nat := 32
def NONCE_BYTES : Nat := 12
def AUTH_TAG_BYTES : Nat := 16

/-- Argon2id, AES-256-GCM, the texts of payloads, and the check of the file of profiles. -/
structure Platform (Plaintext Ciphertext : Type) where
  /-- random bytes, by the call and their number -/
  randomBytes : Nat → Nat → List UInt8
  deriveArgon2idKey : String → List UInt8 → List UInt8
  /-- the ciphertext and the tag for a key, a nonce and a plaintext -/
  cipher : List UInt8 → List UInt8 → Plaintext → Ciphertext × List UInt8
  /-- the plaintext for a key, a nonce, a tag and a ciphertext, or nothing where the tag is refused -/
  decipher : List UInt8 → List UInt8 → List UInt8 → Ciphertext → Option Plaintext
  stringify : VaultPayload → Plaintext
  parse : Plaintext → Option VaultPayload
  validateProfilesFile : ProfilesFile → Except ProfileError Unit
  randomBytes_length : ∀ call n, (randomBytes call n).length = n
  tag_length : ∀ key nonce plaintext, (cipher key nonce plaintext).2.length = AUTH_TAG_BYTES
  inverts : ∀ key nonce plaintext, decipher key nonce (cipher key nonce plaintext).2 (cipher key nonce plaintext).1 = some plaintext
  authentic : ∀ key key' nonce plaintext, key' ≠ key →
    decipher key' nonce (cipher key nonce plaintext).2 (cipher key nonce plaintext).1 = none
  parse_stringify : ∀ payload, parse (stringify payload) = some payload

structure World (Ciphertext : Type) where
  now : Date
  profilesFile : Option ProfilesFile
  vaultFile : Option (VaultFile Ciphertext)
  drawn : Nat

variable {Plaintext Ciphertext : Type}

def World.new (now : Date) : World Ciphertext := ⟨now,none,none,0⟩
def World.writeProfilesFile (w : World Ciphertext) (data : ProfilesFile) : World Ciphertext := { w with profilesFile := some data }

section Store
variable (p : Platform Plaintext Ciphertext)

def readProfilesFile (w : World Ciphertext) : Except ProfileError ProfilesFile :=
  match w.profilesFile with
  | none => .ok ⟨none,.empty⟩
  | some data => (p.validateProfilesFile data).map fun _ => data

def sealArgon2Vault (payload : VaultPayload) (password : String) (drawn : Nat) : VaultFile Ciphertext :=
  let salt := p.randomBytes drawn SALT_BYTES
  let nonce := p.randomBytes (drawn + 1) NONCE_BYTES
  let sealed := p.cipher (p.deriveArgon2idKey password salt) nonce (p.stringify payload)
  ⟨salt,nonce,sealed.2,sealed.1⟩

def validateHex (bytes : List UInt8) (fieldName : String) (expectedBytes : Nat) : Except ProfileError Unit :=
  if bytes.length ≠ expectedBytes then
    .error ⟨.VAULT_INVALID_METADATA,
      s!"Vault field '{fieldName}' has unexpected length {bytes.length} (expected {expectedBytes} bytes)."⟩
  else .ok ()

def openVault (file : VaultFile Ciphertext) (password : String) : Except ProfileError VaultPayload := do
  validateHex file.salt "salt" SALT_BYTES
  validateHex file.nonce "nonce" NONCE_BYTES
  validateHex file.authTag "authTag" AUTH_TAG_BYTES
  match p.decipher (p.deriveArgon2idKey password file.salt) file.nonce file.authTag file.ciphertext with
  | none => .error ⟨.VAULT_WRONG_PASSWORD,
      "Vault could not be unlocked. The password is incorrect or the vault is corrupted."⟩
  | some plaintext =>
    match p.parse plaintext with
    | none => .error ⟨.VAULT_CORRUPTED,
        "Vault decrypted successfully but the payload is not valid JSON. The vault file may be corrupt."⟩
    | some payload => .ok payload

def readVaultPayload (w : World Ciphertext) (password : String) : Except ProfileError VaultPayload :=
  match w.vaultFile with
  | none => .error ⟨.VAULT_NOT_FOUND,"No vault file found. Create a profile with a secret first."⟩
  | some file => openVault p file password

/-- Two calls draw the salt and the nonce. -/
def World.writeVaultPayload (w : World Ciphertext) (payload : VaultPayload) (password : String) : World Ciphertext :=
  { w with vaultFile := some (sealArgon2Vault p payload password w.drawn), drawn := w.drawn + 2 }

/-! ### Profiles -/

def notFound (name : String) : ProfileError :=
  ⟨.PROFILE_NOT_FOUND,s!"Profile '{name}' not found. Run 'profile list' to see available profiles."⟩

/-- The fields that a caller may give. -/
structure ProfileFields where
  network : Option String
  apiUrl : Option String
  logLevel : Option String

def createProfile (w : World Ciphertext) (name : String) (config : ProfileFields) :
    Except ProfileError ProfileConfig × World Ciphertext :=
  if !isValidProfileName name then
    (.error ⟨.INVALID_PROFILE_NAME,
      s!"Profile name '{name}' is invalid. Use only letters, numbers, hyphens, and underscores (1–64 chars)."⟩,w)
  else
    match readProfilesFile p w with
    | .error e => (.error e,w)
    | .ok data =>
      match property data.profiles name with
      | .undefined =>
        let now := toISOString w.now
        let profile : ProfileConfig := ⟨name,config.network,config.apiUrl,config.logLevel,some now,now,some false⟩
        let activeProfile := data.activeProfile.or (some name)
        (.ok profile,w.writeProfilesFile ⟨activeProfile,assign data.profiles name profile⟩)
      | _ => (.error ⟨.PROFILE_ALREADY_EXISTS,
          s!"A profile named '{name}' already exists. Use 'profile update {name}' to modify it."⟩,w)

def setActiveProfile (w : World Ciphertext) (name : String) : Except ProfileError Unit × World Ciphertext :=
  match readProfilesFile p w with
  | .error e => (.error e,w)
  | .ok data =>
    match property data.profiles name with
    | .undefined => (.error (notFound name),w)
    | _ => (.ok (),w.writeProfilesFile { data with activeProfile := some name })

/-- Of what is inherited nothing is copied. -/
def updateProfile (w : World Ciphertext) (name : String) (updates : ProfileFields) :
    Except ProfileError ProfileConfig × World Ciphertext :=
  match readProfilesFile p w with
  | .error e => (.error e,w)
  | .ok data =>
    let write (updated : ProfileConfig) : Except ProfileError ProfileConfig × World Ciphertext :=
      (.ok updated,w.writeProfilesFile { data with profiles := assign data.profiles name updated })
    match property data.profiles name with
    | .undefined => (.error (notFound name),w)
    | .inherited => write ⟨name,updates.network,updates.apiUrl,updates.logLevel,none,toISOString w.now,none⟩
    | .own existing =>
      write { existing with
        network := updates.network.or existing.network, apiUrl := updates.apiUrl.or existing.apiUrl
        logLevel := updates.logLevel.or existing.logLevel, name, updatedAt := toISOString w.now }

def cleanUp (w : World Ciphertext) (name : String) (vaultPassword : Option String) : World Ciphertext :=
  match vaultPassword with
  | none => w
  | some password =>
    if password = "" then w
    else
      match readVaultPayload p w password with
      | .error _ => w
      | .ok payload => w.writeVaultPayload p ⟨payload.secrets.delete name⟩ password

def removeProfile (w : World Ciphertext) (name : String) (vaultPassword : Option String) :
    Except ProfileError Unit × World Ciphertext :=
  match readProfilesFile p w with
  | .error e => (.error e,w)
  | .ok data =>
    let remove (w : World Ciphertext) : Except ProfileError Unit × World Ciphertext :=
      let profiles := data.profiles.delete name
      let activeProfile := if data.activeProfile = some name then (objectKeys profiles).head? else data.activeProfile
      (.ok (),w.writeProfilesFile ⟨activeProfile,profiles⟩)
    match property data.profiles name with
    | .undefined => (.error (notFound name),w)
    | .inherited => remove w
    | .own profile => remove (if profile.hasSecrets = some true then cleanUp p w name vaultPassword else w)

/-! ### Secrets -/

def ProfileSecrets.empty : ProfileSecrets := ⟨none,none⟩

def ProfileSecrets.set (secrets : ProfileSecrets) (key value : String) : ProfileSecrets :=
  if key = "apiKey" then { secrets with apiKey := some value }
  else { secrets with extra := some (assign (secrets.extra.getD .empty) key value) }

def ProfileSecrets.delete (secrets : ProfileSecrets) (key : String) : ProfileSecrets :=
  if key = "apiKey" then { secrets with apiKey := none }
  else { secrets with extra := secrets.extra.map fun extra => extra.delete key }

/-- `secrets.apiKey` or `secrets.extra?.[key]`. -/
def ProfileSecrets.get (secrets : ProfileSecrets) (key : String) : Property String :=
  if key = "apiKey" then
    match secrets.apiKey with
    | some value => .own value
    | none => .undefined
  else
    match secrets.extra with
    | some extra => property extra key
    | none => .undefined

def ProfileSecrets.keys (secrets : ProfileSecrets) : List String :=
  (if secrets.apiKey.isSome then ["apiKey"] else []) ++ (secrets.extra.map objectKeys).getD []

/-- What is inherited is no entry of the payload. -/
def VaultPayload.setSecret (payload : VaultPayload) (profileName key value : String) : VaultPayload :=
  match property payload.secrets profileName with
  | .undefined => ⟨assign payload.secrets profileName (ProfileSecrets.empty.set key value)⟩
  | .own secrets => ⟨payload.secrets.set profileName (secrets.set key value)⟩
  | .inherited => payload

def VaultPayload.deleteSecret (payload : VaultPayload) (profileName key : String) : VaultPayload :=
  match property payload.secrets profileName with
  | .own secrets => ⟨payload.secrets.set profileName (secrets.delete key)⟩
  | _ => payload

def noProfile (profileName : String) : ProfileError := ⟨.PROFILE_NOT_FOUND,s!"Profile '{profileName}' not found."⟩

def ProfilesFile.flag (data : ProfilesFile) (profileName : String) (hasSecrets : Bool) (updatedAt : String) : ProfilesFile :=
  match data.profiles.get profileName with
  | some profile => { data with profiles := data.profiles.set profileName { profile with hasSecrets := some hasSecrets, updatedAt } }
  | none => data

def setSecret (w : World Ciphertext) (profileName key value password : String) : Except ProfileError Unit × World Ciphertext :=
  match readProfilesFile p w with
  | .error e => (.error e,w)
  | .ok data =>
    match property data.profiles profileName with
    | .undefined => (.error (noProfile profileName),w)
    | _ =>
      let loaded := if w.vaultFile.isSome then readVaultPayload p w password else .ok emptyVaultPayload
      match loaded with
      | .error e => (.error e,w)
      | .ok payload =>
        let w := w.writeVaultPayload p (payload.setSecret profileName key value) password
        (.ok (),w.writeProfilesFile (data.flag profileName true (toISOString w.now)))

def getSecret (w : World Ciphertext) (profileName key password : String) : Except ProfileError (Property String) := do
  let data ← readProfilesFile p w
  match property data.profiles profileName with
  | .undefined => .error (noProfile profileName)
  | _ =>
    let payload ← readVaultPayload p w password
    match property payload.secrets profileName with
    | .undefined => .ok .undefined
    | .own secrets => .ok (secrets.get key)
    | .inherited => .ok .undefined

def listSecretKeys (w : World Ciphertext) (profileName password : String) : Except ProfileError (List String) :=
  (readVaultPayload p w password).map fun payload =>
    match property payload.secrets profileName with
    | .own secrets => secrets.keys
    | _ => []

def deleteSecret (w : World Ciphertext) (profileName key password : String) : Except ProfileError Unit × World Ciphertext :=
  match readProfilesFile p w with
  | .error e => (.error e,w)
  | .ok data =>
    match property data.profiles profileName with
    | .undefined => (.error (noProfile profileName),w)
    | _ =>
      match readVaultPayload p w password with
      | .error e => (.error e,w)
      | .ok payload =>
        let w := w.writeVaultPayload p (payload.deleteSecret profileName key) password
        match listSecretKeys p w profileName password with
        | .error e => (.error e,w)
        | .ok updatedKeys => (.ok (),w.writeProfilesFile (data.flag profileName (0 < updatedKeys.length) (toISOString w.now)))

/-! ### The system -/

inductive Call where
  | createProfile (name : String) (config : ProfileFields)
  | setActiveProfile (name : String)
  | updateProfile (name : String) (updates : ProfileFields)
  | removeProfile (name : String) (vaultPassword : Option String)
  | setSecret (profileName key value password : String)
  | deleteSecret (profileName key password : String)
  | setTime (now : Date)

def step (w : World Ciphertext) : Call → Except ProfileError Unit × World Ciphertext
  | .createProfile name config => ((createProfile p w name config).1.map fun _ => (),(createProfile p w name config).2)
  | .setActiveProfile name => setActiveProfile p w name
  | .updateProfile name updates => ((updateProfile p w name updates).1.map fun _ => (),(updateProfile p w name updates).2)
  | .removeProfile name vaultPassword => removeProfile p w name vaultPassword
  | .setSecret profileName key value password => setSecret p w profileName key value password
  | .deleteSecret profileName key password => deleteSecret p w profileName key password
  | .setTime now => (.ok (),{ w with now })

end Store

/-! ### Objects -/

variable {α : Type} {object : OrderedMap String α}

theorem property_own {name : String} {value : α} (own : property object name = .own value) :
    object.get name = some value := by
  unfold property at own
  split at own
  next found =>
    cases own
    exact found
  next => split at own <;> cases own

theorem property_undefined {name : String} (undefined : property object name = .undefined) :
    object.get name = none ∧ name ∉ inheritedNames := by
  unfold property at undefined
  split at undefined
  next => cases undefined
  next free =>
    split at undefined
    · cases undefined
    next plain => exact ⟨free,plain⟩

theorem property_inherited {name : String} (inherited : property object name = .inherited) :
    object.get name = none ∧ name ∈ inheritedNames := by
  unfold property at inherited
  split at inherited
  next => cases inherited
  next free =>
    split at inherited
    next own => exact ⟨free,own⟩
    · cases inherited

theorem assign_plain (object : OrderedMap String α) {name : String} (plain : name ∉ inheritedNames) (value : α) :
    assign object name value = object.set name value := by
  refine if_neg ?_
  rintro rfl
  exact plain (by decide)

theorem mem_objectKeys {name : String} : name ∈ objectKeys object ↔ ∃ value, object.get name = some value := by
  rw [objectKeys,List.mem_append,List.mem_mergeSort,List.mem_filter,List.mem_filter,← and_or_left,mem_keys_iff]
  cases arrayIndex name <;> simp

section Vault
variable {p : Platform Plaintext Ciphertext}

theorem openVault_seal (payload : VaultPayload) (password other : String) (drawn : Nat) :
    openVault p (sealArgon2Vault p payload password drawn) other =
      if p.deriveArgon2idKey other (p.randomBytes drawn SALT_BYTES) = p.deriveArgon2idKey password (p.randomBytes drawn SALT_BYTES)
      then .ok payload
      else .error ⟨.VAULT_WRONG_PASSWORD,"Vault could not be unlocked. The password is incorrect or the vault is corrupted."⟩ := by
  simp only [openVault,sealArgon2Vault,validateHex,p.randomBytes_length,p.tag_length,ne_eq,not_true_eq_false,↓reduceIte]
  by_cases same : p.deriveArgon2idKey other (p.randomBytes drawn SALT_BYTES) = p.deriveArgon2idKey password (p.randomBytes drawn SALT_BYTES)
  · rw [if_pos same,same,p.inverts]
    simp only [p.parse_stringify]
    rfl
  · rw [if_neg same,p.authentic _ _ _ _ same]
    rfl

theorem opened {payload payload' : VaultPayload} {password other : String} {drawn : Nat}
    (opens : openVault p (sealArgon2Vault p payload password drawn) other = .ok payload') : payload' = payload := by
  rw [openVault_seal] at opens
  split at opens
  · exact (Except.ok.inj opens).symm
  · cases opens

theorem read_written (w : World Ciphertext) (payload : VaultPayload) (password : String) :
    readVaultPayload p (w.writeVaultPayload p payload password) password = .ok payload := by
  show openVault p (sealArgon2Vault p payload password w.drawn) password = .ok payload
  rw [openVault_seal,if_pos rfl]

end Vault

/-! ### Secrets -/

variable {secrets : ProfileSecrets}

theorem get_own_keys {key value : String} (own : secrets.get key = .own value) : secrets.keys ≠ [] := by
  unfold ProfileSecrets.get at own
  split at own
  · split at own
    next found => simp [ProfileSecrets.keys,found]
    next => cases own
  · split at own
    next extra found =>
      have listed : key ∈ objectKeys extra := mem_objectKeys.mpr ⟨value,property_own own⟩
      intro none
      rw [ProfileSecrets.keys,found] at none
      have empty : objectKeys extra = [] := (List.append_eq_nil_iff.mp none).2
      rw [empty] at listed
      cases listed
    next => cases own

theorem get_empty_secrets (key value : String) : ProfileSecrets.empty.get key ≠ .own value := by
  rw [ProfileSecrets.get]
  split <;> rintro ⟨⟩

variable {other : String}

theorem property_assign {object : OrderedMap String String} {name value key : String}
    (own : property (assign object name value) key = .own other) :
    (key = name ∧ other = value) ∨ property object key = .own other := by
  have found := property_own own
  unfold assign at found
  split at found
  · exact .inr (by rw [property,found])
  · rw [get_set] at found
    split at found
    next same => exact .inl ⟨same,(Option.some.inj found).symm⟩
    next => exact .inr (by rw [property,found])

theorem get_set_secrets {key value found : String} (own : (secrets.set key value).get other = .own found) :
    (other = key ∧ found = value) ∨ secrets.get other = .own found := by
  unfold ProfileSecrets.set at own
  by_cases api : key = "apiKey"
  · rw [if_pos api] at own
    by_cases same : other = "apiKey"
    · simp only [ProfileSecrets.get,if_pos same] at own
      cases own
      exact .inl ⟨same.trans api.symm,rfl⟩
    · simp only [ProfileSecrets.get,if_neg same] at own
      exact .inr (by simpa only [ProfileSecrets.get,if_neg same] using own)
  · rw [if_neg api] at own
    by_cases same : other = "apiKey"
    · simp only [ProfileSecrets.get,if_pos same] at own
      exact .inr (by simpa only [ProfileSecrets.get,if_pos same] using own)
    · simp only [ProfileSecrets.get,if_neg same] at own
      rcases property_assign own with new | old
      · exact .inl new
      · refine .inr ?_
        simp only [ProfileSecrets.get,if_neg same]
        cases bag : secrets.extra with
        | none =>
          rw [bag] at old
          cases property_own old
        | some extra =>
          rw [bag] at old
          exact old

theorem get_delete_secrets {key found : String} (own : (secrets.delete key).get other = .own found) :
    secrets.get other = .own found := by
  unfold ProfileSecrets.delete at own
  by_cases api : key = "apiKey"
  · rw [if_pos api] at own
    by_cases same : other = "apiKey"
    · simp only [ProfileSecrets.get,if_pos same] at own
      cases own
    · simpa only [ProfileSecrets.get,if_neg same] using own
  · rw [if_neg api] at own
    by_cases same : other = "apiKey"
    · simpa only [ProfileSecrets.get,if_pos same] using own
    · simp only [ProfileSecrets.get,if_neg same] at own ⊢
      cases bag : secrets.extra with
      | none =>
        simp [bag] at own
      | some extra =>
        simp only [bag,Option.map_some] at own
        have kept := property_own own
        rw [get_delete] at kept
        split at kept
        · cases kept
        · simp only [property,kept]

/-! ### What a call does -/

def World.profiles (w : World Ciphertext) : OrderedMap String ProfileConfig := (w.profilesFile.map ProfilesFile.profiles).getD .empty
def World.activeProfile (w : World Ciphertext) : Option String := w.profilesFile.bind ProfilesFile.activeProfile

@[simp] theorem profiles_written (w : World Ciphertext) (data : ProfilesFile) : (w.writeProfilesFile data).profiles = data.profiles := rfl
@[simp] theorem active_written (w : World Ciphertext) (data : ProfilesFile) :
    (w.writeProfilesFile data).activeProfile = data.activeProfile := rfl
@[simp] theorem vault_written (w : World Ciphertext) (data : ProfilesFile) : (w.writeProfilesFile data).vaultFile = w.vaultFile := rfl

section Steps
variable {p : Platform Plaintext Ciphertext}

theorem read_ok {w : World Ciphertext} {data : ProfilesFile} (read : readProfilesFile p w = .ok data) :
    data.profiles = w.profiles ∧ data.activeProfile = w.activeProfile := by
  unfold readProfilesFile at read
  unfold World.profiles World.activeProfile
  split at read
  next none =>
    cases read
    rw [none]
    exact ⟨rfl,rfl⟩
  next file found =>
    rw [found]
    cases checked : p.validateProfilesFile file with
    | error e =>
      rw [checked] at read
      cases read
    | ok _ =>
      rw [checked] at read
      cases read
      exact ⟨rfl,rfl⟩

def flagged (profiles : OrderedMap String ProfileConfig) (name : String) (hasSecrets : Bool) (updatedAt : String) :
    OrderedMap String ProfileConfig :=
  match profiles.get name with
  | some profile => profiles.set name { profile with hasSecrets := some hasSecrets, updatedAt }
  | none => profiles

theorem flag_profiles (data : ProfilesFile) (name : String) (hasSecrets : Bool) (updatedAt : String) :
    (data.flag name hasSecrets updatedAt).profiles = flagged data.profiles name hasSecrets updatedAt ∧
      (data.flag name hasSecrets updatedAt).activeProfile = data.activeProfile := by
  unfold ProfilesFile.flag flagged
  split
  · exact ⟨rfl,rfl⟩
  · exact ⟨rfl,rfl⟩

/-- The payload that `setSecret` begins with. -/
def Loaded (p : Platform Plaintext Ciphertext) (w : World Ciphertext) (password : String) (payload : VaultPayload) : Prop :=
  (w.vaultFile = none ∧ payload = emptyVaultPayload) ∨ readVaultPayload p w password = .ok payload

/-- All that a call does, by what it writes. -/
inductive Moves (p : Platform Plaintext Ciphertext) (w : World Ciphertext) : Call → Except ProfileError Unit × World Ciphertext → Prop where
  | refused (call : Call) (e : ProfileError) : Moves p w call (.error e,w)
  | time (now : Date) : Moves p w (.setTime now) (.ok (),{ w with now })
  | created {name : String} {config : ProfileFields} {after : World Ciphertext} {profile : ProfileConfig}
      (free : w.profiles.get name = none) (plain : name ∉ inheritedNames) (bare : profile.hasSecrets = some false)
      (profiles : after.profiles = w.profiles.set name profile) (active : after.activeProfile = w.activeProfile.or (some name))
      (vault : after.vaultFile = w.vaultFile) : Moves p w (.createProfile name config) (.ok (),after)
  | activated {name : String} {after : World Ciphertext}
      (known : name ∉ inheritedNames → ∃ profile, w.profiles.get name = some profile)
      (profiles : after.profiles = w.profiles) (active : after.activeProfile = some name)
      (vault : after.vaultFile = w.vaultFile) : Moves p w (.setActiveProfile name) (.ok (),after)
  | updated {name : String} {updates : ProfileFields} {after : World Ciphertext} {profile : ProfileConfig}
      (keeps : ∀ existing, w.profiles.get name = some existing → profile.hasSecrets = existing.hasSecrets)
      (profiles : after.profiles = assign w.profiles name profile) (active : after.activeProfile = w.activeProfile)
      (vault : after.vaultFile = w.vaultFile) : Moves p w (.updateProfile name updates) (.ok (),after)
  | removed {name : String} {vaultPassword : Option String} {after : World Ciphertext}
      (profiles : after.profiles = w.profiles.delete name)
      (active : after.activeProfile =
        if w.activeProfile = some name then (objectKeys (w.profiles.delete name)).head? else w.activeProfile)
      (vault : after.vaultFile = (if (w.profiles.get name).any (fun profile => profile.hasSecrets = some true)
        then cleanUp p w name vaultPassword else w).vaultFile) : Moves p w (.removeProfile name vaultPassword) (.ok (),after)
  | secretSet {name key value password updatedAt : String} {after : World Ciphertext} {payload : VaultPayload}
      (known : (∃ profile, w.profiles.get name = some profile) ∨ name ∈ inheritedNames)
      (loaded : Loaded p w password payload) (profiles : after.profiles = flagged w.profiles name true updatedAt)
      (active : after.activeProfile = w.activeProfile)
      (vault : after.vaultFile = some (sealArgon2Vault p (payload.setSecret name key value) password w.drawn)) :
      Moves p w (.setSecret name key value password) (.ok (),after)
  | secretDeleted {name key password updatedAt : String} {after : World Ciphertext} {payload : VaultPayload}
      (known : (∃ profile, w.profiles.get name = some profile) ∨ name ∈ inheritedNames)
      (loaded : readVaultPayload p w password = .ok payload)
      (profiles : after.profiles = flagged w.profiles name (0 < (match property (payload.deleteSecret name key).secrets name with
        | .own secrets => secrets.keys
        | _ => []).length) updatedAt)
      (active : after.activeProfile = w.activeProfile)
      (vault : after.vaultFile = some (sealArgon2Vault p (payload.deleteSecret name key) password w.drawn)) :
      Moves p w (.deleteSecret name key password) (.ok (),after)

theorem known_of_property {profiles : OrderedMap String ProfileConfig} {name : String} (known : property profiles name ≠ .undefined) :
    (∃ profile, profiles.get name = some profile) ∨ name ∈ inheritedNames := by
  cases is : property profiles name with
  | undefined => exact absurd is known
  | own profile => exact .inl ⟨profile,property_own is⟩
  | inherited => exact .inr (property_inherited is).2

section
variable (w : World Ciphertext)
include w

theorem created_moves (name : String) (config : ProfileFields) :
    Moves p w (.createProfile name config) (step p w (.createProfile name config)) := by
  simp only [step,createProfile]
  split
  · exact .refused _ _
  · cases read : readProfilesFile p w with
    | error e => exact .refused _ _
    | ok data =>
      obtain ⟨profiles,active⟩ := read_ok read
      simp only
      cases is : property data.profiles name with
      | undefined =>
        obtain ⟨free,plain⟩ := property_undefined is
        rw [profiles] at free
        have written : (w.writeProfilesFile ⟨data.activeProfile.or (some name),assign data.profiles name
            ⟨name,config.network,config.apiUrl,config.logLevel,some (toISOString w.now),toISOString w.now,some false⟩⟩).profiles =
            w.profiles.set name
              ⟨name,config.network,config.apiUrl,config.logLevel,some (toISOString w.now),toISOString w.now,some false⟩ := by
          rw [profiles_written,assign_plain _ plain,profiles]
        exact .created free plain rfl written (by rw [active_written,active]) rfl
      | own profile => exact .refused _ _
      | inherited => exact .refused _ _

theorem activated_moves (name : String) :
    Moves p w (.setActiveProfile name) (step p w (.setActiveProfile name)) := by
  simp only [step,setActiveProfile]
  cases read : readProfilesFile p w with
  | error e => exact .refused _ _
  | ok data =>
    obtain ⟨profiles,active⟩ := read_ok read
    have move : property data.profiles name ≠ .undefined → Moves p w (.setActiveProfile name)
        (.ok (),w.writeProfilesFile { data with activeProfile := some name }) := by
      intro defined
      rw [profiles] at defined
      exact .activated (fun plain => (known_of_property defined).resolve_right plain) profiles rfl rfl
    simp only
    cases is : property data.profiles name with
    | undefined => exact .refused _ _
    | own profile => exact move (by rw [is]; rintro ⟨⟩)
    | inherited => exact move (by rw [is]; rintro ⟨⟩)

theorem updated_moves (name : String) (updates : ProfileFields) :
    Moves p w (.updateProfile name updates) (step p w (.updateProfile name updates)) := by
  simp only [step,updateProfile]
  cases read : readProfilesFile p w with
  | error e => exact .refused _ _
  | ok data =>
    obtain ⟨profiles,active⟩ := read_ok read
    simp only
    cases is : property data.profiles name with
    | undefined => exact .refused _ _
    | inherited =>
      refine .updated (fun existing found => ?_) (by rw [profiles_written,profiles]) active rfl
      rw [← profiles,(property_inherited is).1] at found
      cases found
    | own existing =>
      refine .updated (fun other found => ?_) (by rw [profiles_written,profiles]) active rfl
      rw [← profiles,property_own is] at found
      rw [← Option.some.inj found]

theorem removed_moves (name : String) (vaultPassword : Option String) :
    Moves p w (.removeProfile name vaultPassword) (step p w (.removeProfile name vaultPassword)) := by
  simp only [step,removeProfile]
  cases read : readProfilesFile p w with
  | error e => exact .refused _ _
  | ok data =>
    obtain ⟨profiles,active⟩ := read_ok read
    simp only
    cases is : property data.profiles name with
    | undefined => exact .refused _ _
    | inherited =>
      have absent := (property_inherited is).1
      rw [profiles] at absent
      refine .removed (by rw [profiles_written,profiles]) (by rw [active_written,active,profiles]) ?_
      rw [vault_written,absent]
      rfl
    | own profile =>
      have found := property_own is
      rw [profiles] at found
      refine .removed (by rw [profiles_written,profiles]) (by rw [active_written,active,profiles]) ?_
      rw [vault_written,found]
      simp

theorem secretSet_moves (name key value password : String) :
    Moves p w (.setSecret name key value password) (step p w (.setSecret name key value password)) := by
  simp only [step,setSecret]
  cases read : readProfilesFile p w with
  | error e => exact .refused _ _
  | ok data =>
    obtain ⟨profiles,active⟩ := read_ok read
    have move : property data.profiles name ≠ .undefined → Moves p w (.setSecret name key value password)
        (match if w.vaultFile.isSome = true then readVaultPayload p w password else .ok emptyVaultPayload with
        | .error e => (.error e,w)
        | .ok payload => (.ok (),(w.writeVaultPayload p (payload.setSecret name key value) password).writeProfilesFile
            (data.flag name true (toISOString w.now)))) := by
      intro defined
      rw [profiles] at defined
      obtain ⟨kept,keeps⟩ := flag_profiles data name true (toISOString w.now)
      have finish : ∀ payload, Loaded p w password payload → Moves p w (.setSecret name key value password)
          (.ok (),(w.writeVaultPayload p (payload.setSecret name key value) password).writeProfilesFile
            (data.flag name true (toISOString w.now))) := fun payload loaded =>
        .secretSet (known_of_property defined) loaded (by rw [profiles_written,kept,profiles]) (by rw [active_written,keeps,active]) rfl
      cases vault : w.vaultFile with
      | none =>
        simp only [Option.isSome_none,Bool.false_eq_true,↓reduceIte]
        exact finish _ (.inl ⟨vault,rfl⟩)
      | some file =>
        simp only [Option.isSome_some,↓reduceIte]
        cases opens : readVaultPayload p w password with
        | error e => exact .refused _ _
        | ok payload => exact finish payload (.inr opens)
    simp only
    cases is : property data.profiles name with
    | undefined => exact .refused _ _
    | own profile => exact move (by rw [is]; rintro ⟨⟩)
    | inherited => exact move (by rw [is]; rintro ⟨⟩)

theorem secretDeleted_moves (name key password : String) :
    Moves p w (.deleteSecret name key password) (step p w (.deleteSecret name key password)) := by
  simp only [step,deleteSecret]
  cases read : readProfilesFile p w with
  | error e => exact .refused _ _
  | ok data =>
    obtain ⟨profiles,active⟩ := read_ok read
    cases opens : readVaultPayload p w password with
    | error e =>
      simp only
      cases property data.profiles name <;> exact .refused _ _
    | ok payload =>
      have move : property data.profiles name ≠ .undefined → Moves p w (.deleteSecret name key password)
          (.ok (),(w.writeVaultPayload p (payload.deleteSecret name key) password).writeProfilesFile
            (data.flag name (0 < (match property (payload.deleteSecret name key).secrets name with
              | .own secrets => secrets.keys
              | _ => []).length) (toISOString w.now))) := by
        intro defined
        rw [profiles] at defined
        obtain ⟨kept,keeps⟩ := flag_profiles data name (0 < (match property (payload.deleteSecret name key).secrets name with
              | .own secrets => secrets.keys
              | _ => []).length) (toISOString w.now)
        exact .secretDeleted (known_of_property defined) opens (by rw [profiles_written,kept,profiles])
          (by rw [active_written,keeps,active]) rfl
      simp only [listSecretKeys,read_written,Except.map]
      cases is : property data.profiles name with
      | undefined => exact .refused _ _
      | own profile => exact move (by rw [is]; rintro ⟨⟩)
      | inherited => exact move (by rw [is]; rintro ⟨⟩)

theorem step_moves (call : Call) : Moves p w call (step p w call) := by
  cases call with
  | createProfile name config => exact created_moves w name config
  | setActiveProfile name => exact activated_moves w name
  | updateProfile name updates => exact updated_moves w name updates
  | removeProfile name vaultPassword => exact removed_moves w name vaultPassword
  | setSecret name key value password => exact secretSet_moves w name key value password
  | deleteSecret name key password => exact secretDeleted_moves w name key password
  | setTime now => exact .time now

end

end Steps

end StellarAlerts.ProfileStore
