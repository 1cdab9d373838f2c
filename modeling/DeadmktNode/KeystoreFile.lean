/-
# The keystore file

The secret key of a node lies in a JSON file of four hexadecimal strings: the key, encrypted with
AES-256-GCM under a key that Argon2id derives from the password, the salt and the nonce of the
two, and the public key, which is never read back.  Reading the file and saving it are inverse to
each other: a file opens as some keys exactly if these keys could have been saved as it, up to the
spelling of the digits and whatever else the file holds (`openKeystore_eq_ok_iff_saved`).
-/
import DeadmktNode.EventDecoding
import DeadmktNode.FallibleState

/-! ## Keys, files and errors -/

/-- The keys of a node. -/
structure KeyPair where
  secretKey : Vector UInt8 32
  publicKey : Vector UInt8 32
deriving DecidableEq

/-- The random bytes that a keystore is saved with. -/
structure Seed where
  salt : Vector UInt8 32
  nonce : Vector UInt8 12
deriving DecidableEq

/-- What can go wrong with a keystore. -/
inductive KeystoreError where
  | ioError (message : String)
  | jsonError (message : String)
  | decryptionFailed
  | invalidKeyData (message : String)
  | hexError (message : String)
  | envVarNotSet
  | kdfError (message : String)
deriving DecidableEq

/-- The texts of the errors. -/
def KeystoreError.text : KeystoreError → String
  | .ioError message => "IO error: " ++ message
  | .jsonError message => "JSON error: " ++ message
  | .decryptionFailed => "decryption failed (wrong password?)"
  | .invalidKeyData message => "invalid key data: " ++ message
  | .hexError message => "hex decode error: " ++ message
  | .envVarNotSet => "environment variable DEADMKT_KEYSTORE_PASSWORD not set"
  | .kdfError message => "KDF error: " ++ message

/-- The kinds of keystores. -/
inductive KeystoreMode where
  | encrypted
  | insecure
  | missing
deriving DecidableEq, Repr

/-- A file: absent, whole, or cut short by a write that failed. -/
inductive Stored (α : Type) where
  | absent
  | whole (contents : α)
  | broken
deriving DecidableEq

/-- Is there a file, whatever it holds? -/
def Stored.exists {α : Type} : Stored α → Bool
  | .absent => false
  | _ => true

/-! ## Structs in JSON -/

namespace JsonValue

/-- The string of a name among the fields of an object; a name that occurs twice is an error. -/
def uniqueStr (fields : List (String × JsonValue)) (name : String) : Option String :=
  match fields.filter fun field => field.1 = name with
  | [(_, .string s)] => some s
  | _ => none

/-- The strings of a struct, from an object that may hold more, or from an array. -/
def structStrings (names : List String) : JsonValue → Option (List String)
  | object fields => names.mapM (uniqueStr fields)
  | array elements => if elements.length = names.length then elements.mapM asStr else none
  | _ => none

end JsonValue

/-- The strings of an encrypted keystore. -/
structure EncryptedKeystore where
  salt : String
  nonce : String
  ciphertext : String
  publicKey : String
deriving DecidableEq

namespace EncryptedKeystore

def fromJson (json : JsonValue) : Option EncryptedKeystore :=
  match json.structStrings ["salt", "nonce", "ciphertext", "public_key"] with
  | some [salt, nonce, ciphertext, publicKey] => some ⟨salt, nonce, ciphertext, publicKey⟩
  | _ => none

def toJson (keystore : EncryptedKeystore) : JsonValue :=
  .object [("salt", .string keystore.salt), ("nonce", .string keystore.nonce),
    ("ciphertext", .string keystore.ciphertext), ("public_key", .string keystore.publicKey)]

/-- **Round trip.**  A keystore is read back as it was written. -/
theorem fromJson_toJson (keystore : EncryptedKeystore) :
    fromJson keystore.toJson = some keystore := rfl

end EncryptedKeystore

/-- The strings of a keystore in the clear. -/
structure InsecureKeystore where
  mode : String
  secretKey : String
  publicKey : String
deriving DecidableEq

namespace InsecureKeystore

def fromJson (json : JsonValue) : Option InsecureKeystore :=
  match json.structStrings ["mode", "secret_key", "public_key"] with
  | some [mode, secretKey, publicKey] => some ⟨mode, secretKey, publicKey⟩
  | _ => none

def toJson (keystore : InsecureKeystore) : JsonValue :=
  .object [("mode", .string keystore.mode), ("secret_key", .string keystore.secretKey),
    ("public_key", .string keystore.publicKey)]

theorem fromJson_toJson (keystore : InsecureKeystore) :
    fromJson keystore.toJson = some keystore := rfl

end InsecureKeystore

/-- The nonce of a keystore, where it is written in hexadecimal, has 12 bytes. -/
def NonceFits (json : JsonValue) : Prop :=
  ∀ keystore bytes, EncryptedKeystore.fromJson json = some keystore →
    hexDecode keystore.nonce.toList = some bytes → bytes.length = 12

/-- The file of a keystore: a JSON document whose nonce fits.  On another nonce, which nothing in
the program writes, `Nonce::from_slice` panics. -/
abbrev KeystoreFile := {json : JsonValue // NonceFits json}

/-! ## The crates -/

/-- The cost of Argon2id, in KiB, passes and lanes, and the length of its result. -/
structure Argon2Params where
  memory : UInt32
  iterations : UInt32
  parallelism : UInt32
  outputLen : Option ℕ
deriving DecidableEq

/-- The crates `argon2`, `aes_gcm`, `ed25519_dalek` and `serde_json`.  Of the cipher it is known
that it decrypts to a text exactly what the text is encrypted to, under one key and nonce. -/
structure KeystoreCrates extends HexCrate where
  /-- `Argon2::hash_password_into` at version 0x13 -/
  argon2id : Argon2Params → Bytes → Bytes → Except String (Vector UInt8 32)
  /-- `Aes256Gcm::encrypt` -/
  aesGcmEncrypt : Vector UInt8 32 → Vector UInt8 12 → Bytes → Option Bytes
  /-- `Aes256Gcm::decrypt` -/
  aesGcmDecrypt : Vector UInt8 32 → Vector UInt8 12 → Bytes → Option Bytes
  /-- `SigningKey::verifying_key` -/
  verifyingKey : Vector UInt8 32 → Vector UInt8 32
  /-- The error on a file that is cut short. -/
  notJson : String
  /-- The error on a document that lacks a field. -/
  noStruct : JsonValue → String
  /-- The error on a file that is not there. -/
  noFile : String
  decrypt_eq_some_iff : ∀ key nonce plaintext ciphertext,
    aesGcmDecrypt key nonce ciphertext = some plaintext ↔
      aesGcmEncrypt key nonce plaintext = some ciphertext

namespace KeystoreCrates

variable (crates : KeystoreCrates)

/-- The keys with a secret key. -/
def keyPair (secretKey : Vector UInt8 32) : KeyPair := ⟨secretKey, crates.verifyingKey secretKey⟩

/-- Argon2id with 64 MB, three passes and one lane. -/
def deriveKey (password salt : Bytes) : Except KeystoreError (Vector UInt8 32) :=
  (crates.argon2id ⟨65536, 3, 1, some 32⟩ password salt).mapError .kdfError

/-! ## Saving and loading -/

/-- The keystore of a ciphertext. -/
def encryptedKeystore (seed : Seed) (ciphertext : Bytes) (publicKey : Vector UInt8 32) :
    EncryptedKeystore where
  salt := crates.encode seed.salt.toList
  nonce := crates.encode seed.nonce.toList
  ciphertext := crates.encode ciphertext
  publicKey := crates.encode publicKey.toList

/-- The nonce of a keystore that is saved fits. -/
theorem nonceFits_encryptedKeystore (seed : Seed) (ciphertext : Bytes)
    (publicKey : Vector UInt8 32) :
    NonceFits (crates.encryptedKeystore seed ciphertext publicKey).toJson := by
  intro keystore bytes hread hdecode
  obtain rfl := Option.some.inj hread
  have hnonce := (crates.decode_eq_ok_iff _ _).mpr hdecode
  rw [encryptedKeystore, crates.decode_encode] at hnonce
  obtain rfl := Except.ok.inj hnonce
  exact Vector.length_toList

/-- Encrypt a secret key for its file, under the password and random bytes. -/
def saveKeystore (keys : KeyPair) (password : String) (seed : Seed) :
    Except KeystoreError KeystoreFile := do
  let key ← crates.deriveKey password.toUTF8.data.toList seed.salt.toList
  match crates.aesGcmEncrypt key seed.nonce keys.secretKey.toList with
  | none => throw .decryptionFailed
  | some ciphertext =>
      return ⟨(crates.encryptedKeystore seed ciphertext keys.publicKey).toJson,
        crates.nonceFits_encryptedKeystore seed ciphertext keys.publicKey⟩

/-- The bytes that a keystore is opened with. -/
structure Sealed where
  salt : Bytes
  nonce : Bytes
  ciphertext : Bytes
deriving DecidableEq

/-- Read the bytes of a keystore; the public key is not among them. -/
def readSealed (json : JsonValue) : Except KeystoreError Sealed :=
  match EncryptedKeystore.fromJson json with
  | none => .error (.jsonError (crates.noStruct json))
  | some keystore => do
      let salt ← (crates.decode keystore.salt).mapError .hexError
      let nonce ← (crates.decode keystore.nonce).mapError .hexError
      let ciphertext ← (crates.decode keystore.ciphertext).mapError .hexError
      return ⟨salt, nonce, ciphertext⟩

/-- Decrypt the secret key; the public key is that of the secret. -/
def openSealed (key : Vector UInt8 32) (nonce : Vector UInt8 12) (ciphertext : Bytes) :
    Except KeystoreError KeyPair :=
  match crates.aesGcmDecrypt key nonce ciphertext with
  | none => .error .decryptionFailed
  | some plaintext =>
      if h : plaintext.length = 32 then .ok (crates.keyPair ⟨plaintext.toArray, h⟩)
      else .error (.invalidKeyData ("expected 32 bytes, got " ++ toString plaintext.length))

/-- Open the keystore of a document; `none` is the panic on a nonce that does not have 12 bytes. -/
def openKeystore (json : JsonValue) (password : String) :
    Option (Except KeystoreError KeyPair) :=
  match crates.readSealed json with
  | .error e => some (.error e)
  | .ok bytes =>
      match crates.deriveKey password.toUTF8.data.toList bytes.salt with
      | .error e => some (.error e)
      | .ok key =>
          if h : bytes.nonce.length = 12 then
            some (crates.openSealed key ⟨bytes.nonce.toArray, h⟩ bytes.ciphertext)
          else none

/-! ## What opens -/

section

variable {crates} {json : JsonValue} {keys : KeyPair} {password : String}

/-- The bytes are what the three strings are decoded to. -/
theorem readSealed_eq_ok_iff {bytes : Sealed} :
    crates.readSealed json = .ok bytes ↔
      ∃ keystore, EncryptedKeystore.fromJson json = some keystore ∧
        crates.decode keystore.salt = .ok bytes.salt ∧
        crates.decode keystore.nonce = .ok bytes.nonce ∧
        crates.decode keystore.ciphertext = .ok bytes.ciphertext := by
  unfold readSealed
  cases EncryptedKeystore.fromJson json with
  | none => exact iff_of_false nofun nofun
  | some keystore =>
      constructor
      · intro h
        obtain ⟨salt, hsalt, h⟩ := bind_eq_ok_iff.mp h
        obtain ⟨nonce, hnonce, h⟩ := bind_eq_ok_iff.mp h
        obtain ⟨ciphertext, hciphertext, h⟩ := bind_eq_ok_iff.mp h
        obtain rfl := Except.ok.inj h
        exact ⟨keystore, rfl, mapError_eq_ok_iff.mp hsalt, mapError_eq_ok_iff.mp hnonce,
          mapError_eq_ok_iff.mp hciphertext⟩
      · rintro ⟨_, heq, hsalt, hnonce, hciphertext⟩
        obtain rfl := Option.some.inj heq
        exact bind_eq_ok_iff.mpr ⟨_, mapError_eq_ok_iff.mpr hsalt, bind_eq_ok_iff.mpr
          ⟨_, mapError_eq_ok_iff.mpr hnonce, bind_eq_ok_iff.mpr
            ⟨_, mapError_eq_ok_iff.mpr hciphertext, rfl⟩⟩⟩

/-- What was encrypted is read back. -/
theorem readSealed_encryptedKeystore (seed : Seed) (ciphertext : Bytes)
    (publicKey : Vector UInt8 32) :
    crates.readSealed (crates.encryptedKeystore seed ciphertext publicKey).toJson
      = .ok ⟨seed.salt.toList, seed.nonce.toList, ciphertext⟩ :=
  readSealed_eq_ok_iff.mpr ⟨_, EncryptedKeystore.fromJson_toJson _, crates.decode_encode _,
    crates.decode_encode _, crates.decode_encode _⟩

/-- A ciphertext opens as the keys whose secret is encrypted to it. -/
theorem openSealed_eq_ok_iff {key : Vector UInt8 32} {nonce : Vector UInt8 12}
    {ciphertext : Bytes} :
    crates.openSealed key nonce ciphertext = .ok keys ↔
      crates.aesGcmEncrypt key nonce keys.secretKey.toList = some ciphertext ∧
        keys = crates.keyPair keys.secretKey := by
  unfold openSealed
  rw [← crates.decrypt_eq_some_iff]
  cases crates.aesGcmDecrypt key nonce ciphertext with
  | none => exact iff_of_false nofun nofun
  | some plaintext =>
      dsimp only
      split_ifs with hlength
      · rw [Except.ok.injEq, Option.some.injEq]
        constructor
        · rintro rfl
          exact ⟨rfl, rfl⟩
        · rintro ⟨rfl, hkeys⟩
          exact hkeys.symm
      · refine iff_of_false not_false ?_
        rintro ⟨hplaintext, -⟩
        obtain rfl := Option.some.inj hplaintext
        exact hlength Vector.length_toList

/-- What a document opens as. -/
theorem openKeystore_eq_ok_iff :
    crates.openKeystore json password = some (.ok keys) ↔
      ∃ salt nonce ciphertext key,
        crates.readSealed json = .ok ⟨salt, Vector.toList nonce, ciphertext⟩ ∧
        crates.deriveKey password.toUTF8.data.toList salt = .ok key ∧
        crates.openSealed key nonce ciphertext = .ok keys := by
  unfold openKeystore
  cases crates.readSealed json with
  | error e => exact iff_of_false nofun nofun
  | ok bytes =>
      obtain ⟨salt, nonce, ciphertext⟩ := bytes
      dsimp only
      cases hkey : crates.deriveKey password.toUTF8.data.toList salt with
      | error e =>
          refine iff_of_false nofun ?_
          rintro ⟨_, _, _, _, hread, hderive, -⟩
          obtain ⟨rfl, -⟩ := Sealed.mk.inj (Except.ok.inj hread)
          rw [hkey] at hderive
          cases hderive
      | ok key =>
          dsimp only
          -- the cipher panics on a nonce of another length
          split_ifs with hlength
          · rw [Option.some.injEq]
            constructor
            · intro h
              exact ⟨salt, _, ciphertext, key, rfl, hkey, h⟩
            · rintro ⟨_, nonce', _, _, hread, hderive, h⟩
              obtain ⟨rfl, rfl, rfl⟩ := Sealed.mk.inj (Except.ok.inj hread)
              rw [hkey] at hderive
              obtain rfl := Except.ok.inj hderive
              exact h
          · refine iff_of_false not_false ?_
            rintro ⟨_, nonce', _, _, hread, -, -⟩
            obtain ⟨-, rfl, -⟩ := Sealed.mk.inj (Except.ok.inj hread)
            exact hlength Vector.length_toList

/-- What is saved. -/
theorem saveKeystore_eq_ok_iff {seed : Seed} {file : KeystoreFile} :
    crates.saveKeystore keys password seed = .ok file ↔
      ∃ key ciphertext,
        crates.deriveKey password.toUTF8.data.toList seed.salt.toList = .ok key ∧
        crates.aesGcmEncrypt key seed.nonce keys.secretKey.toList = some ciphertext ∧
        file.1 = (crates.encryptedKeystore seed ciphertext keys.publicKey).toJson := by
  unfold saveKeystore
  constructor
  · intro h
    obtain ⟨key, hkey, h⟩ := bind_eq_ok_iff.mp h
    cases hencrypt : crates.aesGcmEncrypt key seed.nonce keys.secretKey.toList with
    | none =>
        rw [hencrypt] at h
        cases h
    | some ciphertext =>
        rw [hencrypt] at h
        obtain rfl := Except.ok.inj h
        exact ⟨key, ciphertext, hkey, hencrypt, rfl⟩
  · rintro ⟨key, ciphertext, hkey, hencrypt, hfile⟩
    refine bind_eq_ok_iff.mpr ⟨key, hkey, ?_⟩
    rw [hencrypt]
    exact congrArg Except.ok (Subtype.ext hfile.symm)

/-- **Loading and saving.**  A document with a salt of 32 bytes opens as some keys under a
password exactly if these are the keys of their secret, and saving them under this password, with
some random bytes, writes a file of the same salt, nonce and ciphertext. -/
theorem openKeystore_eq_ok_iff_saved :
    (crates.openKeystore json password = some (.ok keys) ∧
        ∃ bytes, crates.readSealed json = .ok bytes ∧ bytes.salt.length = 32) ↔
      keys = crates.keyPair keys.secretKey ∧
        ∃ seed file bytes, crates.saveKeystore keys password seed = .ok file ∧
          crates.readSealed file.1 = .ok bytes ∧ crates.readSealed json = .ok bytes := by
  constructor
  · rintro ⟨hopen, bytes, hread, hsalt⟩
    obtain ⟨salt, nonce, ciphertext, key, hread', hkey, hsealed⟩ := openKeystore_eq_ok_iff.mp hopen
    obtain rfl := Except.ok.inj (hread'.symm.trans hread)
    obtain ⟨hencrypt, hkeys⟩ := openSealed_eq_ok_iff.mp hsealed
    refine ⟨hkeys, ⟨⟨salt.toArray, hsalt⟩, nonce⟩, ?_⟩
    refine ⟨⟨_, crates.nonceFits_encryptedKeystore _ ciphertext keys.publicKey⟩, _,
      saveKeystore_eq_ok_iff.mpr ⟨key, ciphertext, hkey, hencrypt, rfl⟩,
      readSealed_encryptedKeystore _ ciphertext keys.publicKey, hread⟩
  · rintro ⟨hkeys, seed, file, bytes, hsave, hreadFile, hread⟩
    obtain ⟨key, ciphertext, hkey, hencrypt, hfile⟩ := saveKeystore_eq_ok_iff.mp hsave
    rw [hfile, readSealed_encryptedKeystore] at hreadFile
    obtain rfl := Except.ok.inj hreadFile
    exact ⟨openKeystore_eq_ok_iff.mpr ⟨_, seed.nonce, ciphertext, key, hread, hkey,
      openSealed_eq_ok_iff.mpr ⟨hencrypt, hkeys⟩⟩, _, hread, Vector.length_toList⟩

/-- A file of the keystore never panics. -/
theorem isSome_openKeystore (hfits : NonceFits json) :
    (crates.openKeystore json password).isSome = true := by
  unfold openKeystore
  cases hread : crates.readSealed json with
  | error e => rfl
  | ok bytes =>
      dsimp only
      cases crates.deriveKey password.toUTF8.data.toList bytes.salt with
      | error e => rfl
      | ok key =>
          obtain ⟨keystore, hjson, -, hnonce, -⟩ := readSealed_eq_ok_iff.mp hread
          dsimp only
          rw [dif_pos (hfits keystore _ hjson ((crates.decode_eq_ok_iff _ _).mp hnonce))]
          rfl

end

/-! ## The keystore of a node -/

/-- `load_keystore` on the contents of a file. -/
def loadKeystore (file : KeystoreFile) (password : String) : Except KeystoreError KeyPair :=
  (crates.openKeystore file.1 password).get (isSome_openKeystore file.2)

variable {crates} in
/-- A file opens as its document does. -/
theorem loadKeystore_eq_ok_iff {file : KeystoreFile} {password : String} {keys : KeyPair} :
    crates.loadKeystore file password = .ok keys ↔
      crates.openKeystore file.1 password = some (.ok keys) := by
  rw [Option.eq_some_iff_get_eq]
  exact ⟨fun h => ⟨_, h⟩, fun ⟨_, h⟩ => h⟩

variable {crates} in
/-- **Round trip.**  What is saved can be loaded with its password. -/
theorem loadKeystore_of_save {secretKey : Vector UInt8 32} {password : String} {seed : Seed}
    {file : KeystoreFile}
    (hsave : crates.saveKeystore (crates.keyPair secretKey) password seed = .ok file) :
    crates.loadKeystore file password = .ok (crates.keyPair secretKey) := by
  obtain ⟨key, ciphertext, hkey, hencrypt, hfile⟩ := saveKeystore_eq_ok_iff.mp hsave
  rw [loadKeystore_eq_ok_iff, openKeystore_eq_ok_iff, hfile]
  exact ⟨_, _, _, key, readSealed_encryptedKeystore _ _ _, hkey,
    openSealed_eq_ok_iff.mpr ⟨hencrypt, rfl⟩⟩

/-- `load_keystore` on a file. -/
def load (file : Stored KeystoreFile) (password : String) : Except KeystoreError KeyPair :=
  match file with
  | .absent => .error (.ioError crates.noFile)
  | .broken => .error (.jsonError crates.notJson)
  | .whole contents => crates.loadKeystore contents password

/-- The mode of a document; of two modes the last one counts. -/
def modeOf : JsonValue → KeystoreMode
  | .object fields =>
      if (fields.reverse.lookup "mode").bind JsonValue.asStr = some "insecure" then .insecure
      else .encrypted
  | _ => .encrypted

/-- The kind of a file, or that there is none. -/
def detectKeystoreMode : Stored KeystoreFile → Except KeystoreError KeystoreMode
  | .absent => .ok .missing
  | .broken => .error (.jsonError crates.notJson)
  | .whole contents => .ok (modeOf contents.1)

/-- A keystore in the clear is no encrypted one. -/
theorem nonceFits_insecure (keystore : InsecureKeystore) : NonceFits keystore.toJson := nofun

/-- Store keys in the clear, which a production build refuses. -/
def saveKeystoreInsecure (production : Bool) (keys : KeyPair) :
    Except KeystoreError KeystoreFile :=
  if production then
    .error (.invalidKeyData ("insecure keystore mode is disabled in production builds (MR1d). " ++
      "Use save_keystore (encrypted) instead."))
  else
    let keystore : InsecureKeystore :=
      ⟨"insecure", crates.encode keys.secretKey.toList, crates.encode keys.publicKey.toList⟩
    .ok ⟨keystore.toJson, nonceFits_insecure keystore⟩

/-- Load keys that are stored in the clear, which a production build refuses. -/
def loadKeystoreInsecure (production : Bool) (file : Stored KeystoreFile) :
    Except KeystoreError KeyPair :=
  if production then
    .error (.invalidKeyData ("insecure keystore mode is disabled in production builds (MR1d). " ++
      "Re-create the keystore using the encrypted path (`deadmkt-node setup` or `--config " ++
      "setup.json` with keystore_password)."))
  else
    match file with
    | .absent => .error (.ioError crates.noFile)
    | .broken => .error (.jsonError crates.notJson)
    | .whole contents =>
        match InsecureKeystore.fromJson contents.1 with
        | none => .error (.jsonError (crates.noStruct contents.1))
        | some keystore =>
            match crates.decode keystore.secretKey with
            | .error e => .error (.hexError e)
            | .ok secretBytes =>
                if h : secretBytes.length = 32 then .ok (crates.keyPair ⟨secretBytes.toArray, h⟩)
                else
                  .error (.invalidKeyData
                    ("expected 32 bytes, got " ++ toString secretBytes.length))

variable {crates} in
/-- Keys in the clear come back from their file, which is told from an encrypted one. -/
theorem loadKeystoreInsecure_of_save {production : Bool} {secretKey : Vector UInt8 32}
    {file : KeystoreFile}
    (hsave : crates.saveKeystoreInsecure production (crates.keyPair secretKey) = .ok file) :
    modeOf file.1 = .insecure ∧
      crates.loadKeystoreInsecure production (.whole file) = .ok (crates.keyPair secretKey) := by
  cases production with
  | true => cases hsave
  | false =>
      obtain rfl := Except.ok.inj hsave
      refine ⟨rfl, ?_⟩
      have hlength : (crates.keyPair secretKey).secretKey.toList.length = 32 :=
        Vector.length_toList
      simp only [loadKeystoreInsecure, InsecureKeystore.fromJson_toJson, crates.decode_encode]
      rw [if_neg Bool.false_ne_true, dif_pos hlength]
      rfl

/-- Load the keystore with the password of the environment. -/
def loadKeystoreFromEnv (env : Option String) (file : Stored KeystoreFile) :
    Except KeystoreError KeyPair :=
  match env with
  | none => .error .envVarNotSet
  | some password => crates.load file password

end KeystoreCrates

/-! ## A sample -/

/-- A cipher that puts its key before the text, and keys that are the first bytes of a password. -/
def plainKeystore : KeystoreCrates where
  toHexCrate := HexCrate.reference
  argon2id _ password _ := .ok (Vector.ofFn fun i => password.getD i 0)
  aesGcmEncrypt key _ plaintext := some (key.toList ++ plaintext)
  aesGcmDecrypt key _ ciphertext :=
    if ciphertext.take 32 = key.toList then some (ciphertext.drop 32) else none
  verifyingKey := id
  notJson := "EOF while parsing a value at line 1 column 0"
  noStruct _ := "missing field"
  noFile := "No such file or directory (os error 2)"
  decrypt_eq_some_iff key _ plaintext ciphertext := by
    have hlength : key.toList.length = 32 := Vector.length_toList
    rw [Option.some.injEq]
    split_ifs with hkey
    · rw [Option.some.injEq]
      constructor
      · rintro rfl
        rw [← hkey]
        exact List.take_append_drop 32 ciphertext
      · rintro rfl
        exact List.drop_left' hlength
    · refine iff_of_false not_false ?_
      rintro rfl
      exact hkey (List.take_left' hlength)
