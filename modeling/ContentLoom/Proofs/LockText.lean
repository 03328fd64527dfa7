import ContentLoom.Proofs.ArtifactNames
import ContentLoom.Proofs.ReadBack

/-!
# Texts of lock files

A lock file that was written is read back as the record it was written for.
-/

namespace ContentLoom

namespace Checksum

/-! ### Checksums -/

theorem not_mem_hex {c : Char} (h : ∀ n < 16, Nat.digitChar n ≠ c) (bytes : List UInt8) :
    c ∉ Digest.hex bytes := by
  intro hmem
  obtain ⟨b, -, hb⟩ := List.mem_flatMap.1 hmem
  have hbyte := b.toNat_lt
  rcases List.mem_cons.1 hb with rfl | hb
  · exact h _ (by omega) rfl
  · exact h _ (by omega) (List.mem_singleton.1 hb).symm

theorem digits_hexOfText (text : String) :
    digits (Digest.Sha256.hexOfText text) = Digest.Sha256.hexOfText text := by
  have hfirst : 's' ∉ Digest.hex (Digest.Sha256.digest text.toUTF8.toList) :=
    not_mem_hex (by decide) _
  have hmark : Text.afterPrefix? mark.toList (Digest.Sha256.hexOfText text).toList = none := by
    rw [Digest.Sha256.hexOfText, Digest.Sha256.hexOfBytes, String.toList_ofList]
    generalize Digest.hex (Digest.Sha256.digest text.toUTF8.toList) = cs at hfirst ⊢
    cases cs with
    | nil => rfl
    | cons c cs =>
      have hne : 's' ≠ c := fun h => hfirst (h ▸ List.mem_cons_self ..)
      exact if_neg hne
  rw [digits, hmark]

theorem verify_hexOfText (text : String) :
    verify text.toUTF8 (Digest.Sha256.hexOfText text) = true := by
  rw [verify, digits_hexOfText]
  exact beq_self_eq_true _

end Checksum

namespace LockFile

open Json.Document

/-! ### Reading back -/

theorem fits_files (l : LockFile) :
    (Json.obj (l.files.entries.map fun (name, checksum) => (name, Json.str checksum))).Fits 126 :=
  Json.fits_entries (by decide) l.files.increasing.nodup fun _ _ => True.intro

theorem fits_toJson (l : LockFile) : l.toJson.Fits nestingLimit := by
  have hfields : (["generator_version", "shared_namespace", "files"] : List String).Nodup := by
    decide
  exact ⟨by decide, hfields, True.intro, True.intro, fits_files l, True.intro⟩

theorem restores_toJson (l : LockFile) : Restores ofDocument l.toJson l := by
  have hfiles : (readEntries readText (streamed (.obj (l.files.entries.map fun e =>
      (e.1, Json.str e.2))))).map Dictionary.ofEntries = .ok l.files := by
    have hentries := (restores_entries l.files.increasing.nodup).2 fun e _ => restores_text e.2
    rw [hentries]
    exact congrArg Except.ok (Dictionary.ofEntries_entries l.files)
  have hrecord : ofDocument (streamed l.toJson) =
      Except.bind ((readEntries readText (streamed (.obj (l.files.entries.map fun e =>
        (e.1, Json.str e.2))))).map Dictionary.ofEntries) fun files =>
          .ok ⟨l.version, l.sharedNamespace, files⟩ := by
    have hfields : streamed l.toJson = .obj
        [("generator_version", .str l.version), ("shared_namespace", .str l.sharedNamespace),
          ("files", streamed (.obj (l.files.entries.map fun e => (e.1, Json.str e.2))))]
        (.closed .streamed) := rfl
    rw [hfields]
    generalize streamed (.obj (l.files.entries.map fun e => (e.1, Json.str e.2))) = files
    unfold ofDocument readRecord
    simp only [List.foldlM]
    cases (readEntries readText files) <;> rfl
  rw [Restores, hrecord, hfiles]
  rfl

theorem ofText_text (l : LockFile) : ofText l.text = .ok l := by
  rw [ofText, text, decodeText_of_ofText (ofText_pretty_line (fits_toJson l))]
  exact restores_toJson l

/-! ### Records of generated files -/

theorem mem_names_ofArtifacts (files : List Artifact) (o : Options) (name : String) :
    name ∈ (ofArtifacts files o).files.names ↔ name ∈ files.map (·.fileName) := by
  rw [ofArtifacts, Dictionary.mem_names_ofEntries, Entries.names, List.map_map]
  rfl

theorem isPlainName_of_mem_ofArtifacts {files : List Artifact}
    (hfiles : Generation.SideBySide files) {o : Options} {name : String}
    (hname : name ∈ (ofArtifacts files o).files.names) : Files.Path.isPlainName name = true := by
  obtain ⟨a, ha, rfl⟩ := List.mem_map.1 ((mem_names_ofArtifacts files o name).1 hname)
  exact hfiles.plain a ha

theorem staleFiles_self (l : LockFile) : l.staleFiles l = [] := by
  rw [staleFiles, List.filter_eq_nil_iff]
  intro name hname
  simp [(l.files.contains_iff name).2 hname]

end LockFile

end ContentLoom
