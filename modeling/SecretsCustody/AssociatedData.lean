/-
The bytes an encryption authenticates: the metadata of a version row, or the
identity of the provider in its custody witness.  Both are canonical JSON, and
each determines what it was made from.
-/
import SecretsCustody.Models

namespace SecretsCustody

open JsonText

/-! ### Label maps as JSON -/

namespace Labels

/-- The entries of a label map in the order of their keys. -/
def entries (labels : Labels) : List (PyStr × Json) :=
  labels.liftOn
    (fun list => (list.entries.map fun entry => (entry.1, entry.2)).insertionSort keyLe)
    (by
      intro left right hperm
      apply insertionSort_perm _ (hperm.map _)
      rw [List.map_map]
      exact left.nodupKeys)

/-- `dict(labels)` as a JSON value. -/
def toJson (labels : Labels) : Json :=
  .obj labels.entries

theorem entries_perm (list : AList fun _ : PyStr => Json) :
    (entries list.toFinmap).Perm (list.entries.map fun entry => (entry.1, entry.2)) :=
  List.perm_insertionSort keyLe _

theorem entries_nodup (labels : Labels) : (labels.entries.map Prod.fst).Nodup := by
  induction labels using Finmap.induction_on with
  | H list =>
      rw [((entries_perm list).map Prod.fst).nodup_iff, List.map_map]
      exact list.nodupKeys

theorem mem_entries {labels : Labels} {key : PyStr} {value : Json} :
    (key, value) ∈ labels.entries ↔ labels.lookup key = some value := by
  induction labels using Finmap.induction_on with
  | H list =>
      rw [(entries_perm list).mem_iff, Finmap.lookup_toFinmap, ← Option.mem_def,
        AList.mem_lookup_iff, List.mem_map]
      constructor
      · rintro ⟨⟨k, v⟩, hmem, heq⟩
        cases heq
        exact hmem
      · intro hmem
        exact ⟨⟨key, value⟩, hmem, rfl⟩

theorem lookup_entries (labels : Labels) (key : PyStr) :
    labels.entries.lookup key = labels.lookup key := by
  apply Option.ext
  intro value
  rw [lookup_eq_some_iff_mem labels.entries_nodup, mem_entries]

/-- Every label is a text: what the store writes, and what the annotation
`Mapping[str, str]` says. -/
def IsText (labels : Labels) : Prop :=
  ∀ key value, labels.lookup key = some value →
    PlainText key ∧ ∃ text, PlainText text ∧ value = .str text

theorem IsText.plain {labels : Labels} (htext : labels.IsText) : Plain labels.toJson := by
  refine ⟨labels.entries_nodup, (plainEntries_iff _).mpr ?_⟩
  rintro ⟨key, value⟩ hmem
  obtain ⟨hkey, text, hplain, rfl⟩ := htext key value (mem_entries.mp hmem)
  exact ⟨hkey, hplain⟩

/-- Texts hold no integer of too many digits. -/
theorem IsText.short {labels : Labels} (htext : labels.IsText) :
    longInteger (sortKeys labels.toJson) = false := by
  apply (longEntries_eq_false_iff _).mpr
  intro entry hmem
  rw [(List.perm_insertionSort keyLe _).mem_iff, sortEntries_eq_map, List.mem_map] at hmem
  obtain ⟨⟨key, value⟩, hmem, rfl⟩ := hmem
  obtain ⟨_, text, _, rfl⟩ := htext key value (mem_entries.mp hmem)
  rfl

theorem IsText.map_sortKeys {labels : Labels} (htext : labels.IsText) (key : PyStr) :
    (labels.lookup key).map sortKeys = labels.lookup key := by
  cases hfound : labels.lookup key with
  | none => rfl
  | some value =>
      obtain ⟨_, text, _, rfl⟩ := htext key value hfound
      rfl

/-- Text label maps are equal when their JSON values are equal up to order. -/
theorem IsText.eq_of_sortKeys {left right : Labels} (hleft : left.IsText)
    (hright : right.IsText) (heq : sortKeys left.toJson = sortKeys right.toJson) :
    left = right := by
  apply Finmap.ext_lookup
  intro key
  have hfield := field_eq_of_sortKeys_eq hleft.plain heq key
  simp only [toJson, Json.field, lookup_entries] at hfield
  rwa [hleft.map_sortKeys, hright.map_sortKeys] at hfield

end Labels

/-! ### Associated data -/

/-- A `str | None` as a JSON value. -/
def optionalText : Option String → Json
  | none => .null
  | some text => .str (codes text)

theorem plain_optionalText (text : Option String) : Plain (optionalText text) := by
  cases text with
  | none => trivial
  | some text => exact codes_plain text

theorem optionalText_injective {left right : Option String}
    (heq : sortKeys (optionalText left) = sortKeys (optionalText right)) : left = right := by
  cases left <;> cases right <;>
    simp only [optionalText, sortKeys, reduceCtorEq, Json.str.injEq, Option.some.injEq,
      codes_inj] at heq ⊢
  exact heq

/-- The `payload` of `_aad`. -/
def aadPayload (metadata : SecretMetadata) : Json :=
  .obj [
    (codes "workspace_id", .str (codes metadata.workspaceId)),
    (codes "secret_id", .str (codes metadata.secretId)),
    (codes "version_id", .str (codes metadata.versionId)),
    (codes "version_number", .int metadata.versionNumber),
    (codes "status", .str (codes metadata.status.value)),
    (codes "algorithm", .str (codes metadata.algorithm)),
    (codes "key_fingerprint", .str (codes metadata.keyFingerprint)),
    (codes "key_version", .str (codes metadata.keyVersion)),
    (codes "labels", metadata.labels.toJson),
    (codes "created_at", .str (codes metadata.createdAt)),
    (codes "revoked_at", optionalText metadata.revokedAt)]

/-- `_aad`. -/
def aad (metadata : SecretMetadata) : Bytes :=
  encodeUtf8 (dumps .compact (aadPayload metadata))

def schemaVersion : Int := 1

/-- `_context`, of a provider id that no `String` need hold. -/
def contextOf (providerId : PyStr) : Bytes :=
  encodeUtf8 (dumps .compact
    (.arr [.str (codes "cpk-secrets-provider-custody"), .int schemaVersion, .str providerId]))

/-- `_context`. -/
def context (providerId : String) : Bytes :=
  contextOf (codes providerId)

/-- The member names of the payload. -/
def aadKeys : List PyStr :=
  ["workspace_id", "secret_id", "version_id", "version_number", "status", "algorithm",
    "key_fingerprint", "key_version", "labels", "created_at", "revoked_at"].map codes

theorem plain_aadPayload {metadata : SecretMetadata} (htext : metadata.labels.IsText) :
    Plain (aadPayload metadata) := by
  have hlabels := htext.plain
  have hrevoked := plain_optionalText metadata.revokedAt
  have hkeys : aadKeys.Nodup := by decide
  refine ⟨hkeys, ?_⟩
  simp only [PlainEntries, Plain, codes_plain, true_and, and_true]
  exact ⟨hlabels, hrevoked⟩

theorem aad_field {left right : SecretMetadata} (hleft : left.labels.IsText)
    (hright : right.labels.IsText) (haad : aad left = aad right) (key : PyStr) :
    ((aadPayload left).field key).map sortKeys =
      ((aadPayload right).field key).map sortKeys :=
  field_eq_of_sortKeys_eq (plain_aadPayload hleft)
    (sortKeys_eq_of_dumps_eq (plain_aadPayload hleft) (plain_aadPayload hright)
      (encodeUtf8_injective haad)) key

/-- The associated data determines every field of the metadata. -/
theorem aad_injective {left right : SecretMetadata} (hleft : left.labels.IsText)
    (hright : right.labels.IsText) (haad : aad left = aad right) : left = right := by
  have hfield := aad_field hleft hright haad
  have hworkspace : some (Json.str (codes left.workspaceId)) =
      some (Json.str (codes right.workspaceId)) := hfield (codes "workspace_id")
  have hsecret : some (Json.str (codes left.secretId)) =
      some (Json.str (codes right.secretId)) := hfield (codes "secret_id")
  have hversion : some (Json.str (codes left.versionId)) =
      some (Json.str (codes right.versionId)) := hfield (codes "version_id")
  have hnumber : some (Json.int left.versionNumber) =
      some (Json.int right.versionNumber) := hfield (codes "version_number")
  have hstatus : some (Json.str (codes left.status.value)) =
      some (Json.str (codes right.status.value)) := hfield (codes "status")
  have halgorithm : some (Json.str (codes left.algorithm)) =
      some (Json.str (codes right.algorithm)) := hfield (codes "algorithm")
  have hfingerprint : some (Json.str (codes left.keyFingerprint)) =
      some (Json.str (codes right.keyFingerprint)) := hfield (codes "key_fingerprint")
  have hkeyVersion : some (Json.str (codes left.keyVersion)) =
      some (Json.str (codes right.keyVersion)) := hfield (codes "key_version")
  have hlabels : some (sortKeys left.labels.toJson) =
      some (sortKeys right.labels.toJson) := hfield (codes "labels")
  have hcreated : some (Json.str (codes left.createdAt)) =
      some (Json.str (codes right.createdAt)) := hfield (codes "created_at")
  have hrevoked : some (sortKeys (optionalText left.revokedAt)) =
      some (sortKeys (optionalText right.revokedAt)) := hfield (codes "revoked_at")
  simp only [Option.some.injEq, Json.str.injEq, codes_inj] at hworkspace hsecret hversion
  simp only [Option.some.injEq, Json.str.injEq, Json.int.injEq, codes_inj] at hnumber hstatus
  simp only [Option.some.injEq, Json.str.injEq, codes_inj] at halgorithm hfingerprint
  simp only [Option.some.injEq, Json.str.injEq, codes_inj] at hkeyVersion hcreated
  have hstatus' := SecretStatus.value_injective hstatus
  have hlabels' := hleft.eq_of_sortKeys hright (Option.some.inj hlabels)
  have hrevoked' := optionalText_injective (Option.some.inj hrevoked)
  cases left
  cases right
  simp_all only

/-- The members of the payload up to the labels, in the order they are written. -/
theorem sortKeys_aadPayload (metadata : SecretMetadata) :
    ∃ rest, sortKeys (aadPayload metadata) = .obj ([
      (codes "algorithm", .str (codes metadata.algorithm)),
      (codes "created_at", .str (codes metadata.createdAt)),
      (codes "key_fingerprint", .str (codes metadata.keyFingerprint)),
      (codes "key_version", .str (codes metadata.keyVersion)),
      (codes "labels", sortKeys metadata.labels.toJson)] ++ rest) := by
  refine ⟨[
    (codes "revoked_at", sortKeys (optionalText metadata.revokedAt)),
    (codes "secret_id", .str (codes metadata.secretId)),
    (codes "status", .str (codes metadata.status.value)),
    (codes "version_id", .str (codes metadata.versionId)),
    (codes "version_number", .int metadata.versionNumber),
    (codes "workspace_id", .str (codes metadata.workspaceId))], ?_⟩
  rfl

/-- No version row shares its associated data with a custody witness: the one is an object, the
other is none. -/
theorem aad_ne_context (metadata : SecretMetadata) (providerId : String) :
    aad metadata ≠ context providerId := by
  intro heq
  obtain ⟨rest, hpayload⟩ := sortKeys_aadPayload metadata
  have htext := String.ofList_injective (encodeUtf8_injective heq)
  rw [hpayload] at htext
  simp [render, sortKeys, sortItems] at htext

theorem context_injective : Function.Injective context := by
  intro left right heq
  have hplain : ∀ providerId, Plain (.arr [.str (codes "cpk-secrets-provider-custody"),
      .int schemaVersion, .str (codes providerId)]) :=
    fun _ => ⟨codes_plain _, trivial, codes_plain _, trivial⟩
  have hsorted := sortKeys_eq_of_dumps_eq (hplain left) (hplain right)
    (encodeUtf8_injective heq)
  simp only [sortKeys, sortItems, Json.arr.injEq, List.cons.injEq, Json.str.injEq,
    and_true, true_and] at hsorted
  exact codes_injective hsorted

end SecretsCustody
