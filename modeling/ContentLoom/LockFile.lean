import ContentLoom.Artifact
import ContentLoom.Dictionary
import ContentLoom.Digest.Sha256
import ContentLoom.Files.Path
import ContentLoom.Json.Printer
import ContentLoom.Options

/-!
# Lock files

A lock file beside the generated files records the checksum of each of them by
name.  It tells later runs which files were generated and which of them are no
longer.  Every recorded name has to be one of a file in the directory itself.
-/

namespace ContentLoom

/-- The version of the generator. -/
def generatorVersion : String := "0.3.0"

/-! ### Checksums -/

namespace Checksum

/-- The mark in front of a checksum. -/
def mark : String := "sha256:"

/-- The checksum of a text. -/
def ofText (text : String) : String := mark ++ Digest.Sha256.hexOfText text

/-- The digits of a checksum with or without its mark. -/
def digits (checksum : String) : String :=
  match Text.afterPrefix? mark.toList checksum.toList with
  | some rest => String.ofList rest
  | none => checksum

/-- Whether bytes have a checksum. -/
def verify (bytes : ByteArray) (checksum : String) : Bool :=
  Digest.Sha256.hexOfBytes bytes == digits checksum

end Checksum

/-! ### The record -/

/-- What was generated. -/
structure LockFile where
  version : String
  sharedNamespace : String
  /-- The checksums by the names of the files. -/
  files : Dictionary String
deriving DecidableEq

namespace LockFile

/-- The name of a lock file. -/
def fileName : String := "content-pipeline.lock.json"

/-- The record of some generated files. -/
def ofArtifacts (artifacts : List Artifact) (o : Options) : LockFile :=
  ⟨generatorVersion, o.sharedNamespace,
    Dictionary.ofEntries (artifacts.map fun a => (a.fileName, Checksum.ofText a.source))⟩

/-- The first recorded name that is none of a file in the directory itself. -/
def badName? (l : LockFile) : Option String :=
  l.files.names.find? fun name => !Files.Path.isPlainName name

/-- The files recorded here and not there. -/
def staleFiles (l newer : LockFile) : List String :=
  l.files.names.filter fun name => !newer.files.contains name

/-! ### JSON -/

/-- The record as JSON. -/
def toJson (l : LockFile) : Json :=
  .obj [("generator_version", .str l.version), ("shared_namespace", .str l.sharedNamespace),
    ("files", .obj (l.files.entries.map fun (name, checksum) => (name, .str checksum)))]

/-- The text of a lock file. -/
def text (l : LockFile) : String := l.toJson.pretty ++ "\n"

/-- The fields of a record read so far. -/
structure Draft where
  version : Option String
  sharedNamespace : Option String
  files : Option (Dictionary String)

open Json.Document in
/-- The record of a document. -/
def ofDocument : Json.Document → Except Json.Fault LockFile :=
  readRecord ["generator_version", "shared_namespace", "files"] (⟨none, none, none⟩ : Draft)
    (fun l field d =>
      match field with
      | "generator_version" => do pure { l with version := ← once l.version field d.readText }
      | "shared_namespace" => do
        pure { l with sharedNamespace := ← once l.sharedNamespace field d.readText }
      | _ => do
        pure { l with
          files := ← once l.files field ((d.readEntries readText).map Dictionary.ofEntries) })
    (fun layout l => do
      pure ⟨← required layout "generator_version" l.version,
        ← required layout "shared_namespace" l.sharedNamespace,
        ← required layout "files" l.files⟩)

/-- The record of a text. -/
def ofText (text : String) : Except Json.Fault LockFile := Json.Document.decodeText ofDocument text

end LockFile

end ContentLoom
