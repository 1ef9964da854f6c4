/-
The document of approved skips: which entries are well formed, what the loop over them keeps,
and what it reports about the others.
-/
import SecretsCustody.GateRules

namespace PackageIntegrity

open JsonText PythonSyntax

/-! ### Entries -/

/-- The entries of a document that is a list. -/
def entries : SkipDocument → List Json
  | .parsed _ (.arr items) => items
  | _ => []

/-- The text an entry has under a key. -/
def textAt (key : String) : Json → Option PyStr
  | .obj fields =>
      match getItem fields key with
      | some (.str text) => some text
      | _ => none
  | _ => none

/-- The identities in a document. -/
def documentIdentities (document : SkipDocument) : List PyStr :=
  (entries document).filterMap (textAt "identity")

/-- The document has an entry with this identity and this reason. -/
def Lists (document : SkipDocument) (identity reason : PyStr) : Prop :=
  ∃ item ∈ entries document, textAt "identity" item = some identity ∧
    textAt "reason" item = some reason

/-- An entry that approves a skip: neither text is blank, and the reason is not long. -/
structure WellFormed (item : Json) (identity reason : PyStr) : Prop where
  identityGiven : textAt "identity" item = some identity
  reasonGiven : textAt "reason" item = some reason
  identityShown : Words.trim Words.isSpaceCode identity ≠ []
  reasonShown : Words.trim Words.isSpaceCode reason ≠ []
  reasonShort : reason.length ≤ 240

theorem nonBlank_eq_some {fields : List (PyStr × Json)} {key : String} {text : PyStr} :
    nonBlank (getItem fields key) = some text ↔
      textAt key (.obj fields) = some text ∧ Words.trim Words.isSpaceCode text ≠ [] := by
  rw [textAt]
  cases getItem fields key with
  | none => simp [nonBlank]
  | some value =>
      cases value with
      | str found =>
          rw [nonBlank]
          by_cases hblank : Words.trim Words.isSpaceCode found = []
          · rw [if_pos hblank]
            simp only [reduceCtorEq, Option.some.injEq, false_iff, not_and, not_not]
            rintro rfl
            exact hblank
          · rw [if_neg hblank]
            simp only [Option.some.injEq, iff_self_and]
            rintro rfl
            exact hblank
      | null => simp [nonBlank]
      | bool value => simp [nonBlank]
      | int value => simp [nonBlank]
      | float value => simp [nonBlank]
      | arr value => simp [nonBlank]
      | obj value => simp [nonBlank]

/-- An entry is read exactly when it is well formed. -/
theorem readEntry_ok_iff {item : Json} {approval : ApprovedSkip} :
    readEntry item = .ok approval ↔ WellFormed item approval.identity approval.reason := by
  constructor
  · intro hread
    rw [readEntry.eq_def] at hread
    split at hread
    · next fields =>
        split at hread
        · cases hread
        · next identity hidentity =>
            split at hread
            · cases hread
            · next reason hreason =>
                split at hread
                · cases hread
                · next hshort =>
                    cases hread
                    obtain ⟨hidentity, hidentityShown⟩ := nonBlank_eq_some.mp hidentity
                    obtain ⟨hreason, hreasonShown⟩ := nonBlank_eq_some.mp hreason
                    exact ⟨hidentity, hreason, hidentityShown, hreasonShown, not_lt.mp hshort⟩
    · cases hread
  · intro hentry
    cases item with
    | obj fields =>
        rw [readEntry, nonBlank_eq_some.mpr ⟨hentry.identityGiven, hentry.identityShown⟩]
        dsimp only
        rw [nonBlank_eq_some.mpr ⟨hentry.reasonGiven, hentry.reasonShown⟩]
        dsimp only
        rw [if_neg (not_lt.mpr hentry.reasonShort)]
    | null => cases hentry.identityGiven
    | bool value => cases hentry.identityGiven
    | int value => cases hentry.identityGiven
    | float value => cases hentry.identityGiven
    | str value => cases hentry.identityGiven
    | arr value => cases hentry.identityGiven

theorem readEntry_malformed {item : Json}
    (hitem : ∀ identity reason, ¬ WellFormed item identity reason) :
    ∃ message, readEntry item = .error message := by
  cases hread : readEntry item with
  | error message => exact ⟨message, rfl⟩
  | ok approval => exact absurd (readEntry_ok_iff.mp hread) (hitem _ _)

/-! ### The loop over the entries -/

section

variable {relative : PyStr} {index position : Nat} {seen : List PyStr} {item : Json}
variable {items : List Json} {approval : ApprovedSkip} {message : PyStr}

/-- What is approved comes from an entry, and was not seen before. -/
theorem mem_readEntries (hmem : approval ∈ (readEntries relative index seen items).1) :
    approval.identity ∉ seen ∧ ∃ item ∈ items, readEntry item = .ok approval := by
  induction items generalizing index seen with
  | nil => cases hmem
  | cons head tail ih =>
      cases hread : readEntry head with
      | error message =>
          rw [readEntries_error hread] at hmem
          obtain ⟨hfresh, item, hitem, hentry⟩ := ih hmem
          exact ⟨hfresh, item, List.mem_cons_of_mem _ hitem, hentry⟩
      | ok first =>
          by_cases hseen : first.identity ∈ seen
          · rw [readEntries_seen hread hseen] at hmem
            obtain ⟨hfresh, item, hitem, hentry⟩ := ih hmem
            exact ⟨hfresh, item, List.mem_cons_of_mem _ hitem, hentry⟩
          · rw [readEntries_fresh hread hseen] at hmem
            rcases List.mem_cons.mp hmem with rfl | hmem
            · exact ⟨hseen, head, List.mem_cons_self, hread⟩
            · obtain ⟨hfresh, item, hitem, hentry⟩ := ih hmem
              exact ⟨fun hold => hfresh (List.mem_cons_of_mem _ hold), item,
                List.mem_cons_of_mem _ hitem, hentry⟩

/-- No identity is approved twice. -/
theorem readEntries_unique :
    ((readEntries relative index seen items).1.map ApprovedSkip.identity).Nodup := by
  induction items generalizing index seen with
  | nil => exact List.nodup_nil
  | cons head tail ih =>
      cases hread : readEntry head with
      | error message =>
          rw [readEntries_error hread]
          exact ih
      | ok first =>
          by_cases hseen : first.identity ∈ seen
          · rw [readEntries_seen hread hseen]
            exact ih
          · rw [readEntries_fresh hread hseen, List.map_cons, List.nodup_cons]
            refine ⟨?_, ih⟩
            intro htwice
            obtain ⟨other, hother, hsame⟩ := List.mem_map.mp htwice
            apply (mem_readEntries hother).1
            rw [hsame]
            exact List.mem_cons_self

/-- Every identity of an entry that is read is approved, unless it was seen before. -/
theorem readEntries_covers (hitem : item ∈ items) (hread : readEntry item = .ok approval) :
    approval.identity ∈ seen ∨
      ∃ kept ∈ (readEntries relative index seen items).1, kept.identity = approval.identity := by
  induction items generalizing index seen with
  | nil => cases hitem
  | cons head tail ih =>
      cases hhead : readEntry head with
      | error message =>
          rw [readEntries_error hhead]
          rcases List.mem_cons.mp hitem with rfl | hitem
          · rw [hhead] at hread
            cases hread
          · exact ih hitem
      | ok first =>
          by_cases hseen : first.identity ∈ seen
          · rw [readEntries_seen hhead hseen]
            rcases List.mem_cons.mp hitem with rfl | hitem
            · rw [hhead] at hread
              cases hread
              exact Or.inl hseen
            · exact ih hitem
          · rw [readEntries_fresh hhead hseen]
            rcases List.mem_cons.mp hitem with rfl | hitem
            · rw [hhead] at hread
              cases hread
              exact Or.inr ⟨approval, List.mem_cons_self, rfl⟩
            · have hlater : approval.identity ∈ first.identity :: seen ∨
                  ∃ kept ∈ (readEntries relative (index + 1) (first.identity :: seen) tail).1,
                    kept.identity = approval.identity := ih hitem
              rcases hlater with hold | ⟨kept, hkept, hsame⟩
              · rcases List.mem_cons.mp hold with hsame | hold
                · exact Or.inr ⟨first, List.mem_cons_self, hsame.symm⟩
                · exact Or.inl hold
              · exact Or.inr ⟨kept, List.mem_cons_of_mem _ hkept, hsame⟩

/-- What is found about the later entries, with whatever is seen by then, is found. -/
theorem readEntries_rest {finding : IntegrityFinding}
    (hrest : ∀ later, (∀ identity ∈ seen, identity ∈ later) →
      finding ∈ (readEntries relative (index + 1) later items).2) :
    finding ∈ (readEntries relative index seen (item :: items)).2 := by
  have hsame := hrest seen fun identity hidentity => hidentity
  cases hread : readEntry item with
  | error message =>
      rw [readEntries_error hread]
      exact List.mem_cons_of_mem _ hsame
  | ok approval =>
      by_cases hseen : approval.identity ∈ seen
      · rw [readEntries_seen hread hseen]
        exact List.mem_cons_of_mem _ hsame
      · rw [readEntries_fresh hread hseen]
        exact hrest _ fun identity hidentity => List.mem_cons_of_mem _ hidentity

/-- An entry that is not read is reported at its place. -/
theorem readEntries_malformed (hitem : items[position]? = some item)
    (hread : readEntry item = .error message) :
    ⟨relative, index + position, codes "invalid-skip-approval", message⟩ ∈
      (readEntries relative index seen items).2 := by
  induction items generalizing index position seen with
  | nil => cases hitem
  | cons head tail ih =>
      cases position with
      | zero =>
          cases hitem
          rw [readEntries_error hread]
          exact List.mem_cons_self
      | succ position =>
          rw [List.getElem?_cons_succ] at hitem
          rw [← Nat.add_assoc, Nat.add_right_comm]
          exact readEntries_rest fun later _ => ih hitem

/-- An entry with an identity that was seen before is reported at its place. -/
theorem readEntries_repeated (hitem : items[position]? = some item)
    (hread : readEntry item = .ok approval) (hseen : approval.identity ∈ seen) :
    ⟨relative, index + position, codes "duplicate-skip-approval", approval.identity⟩ ∈
      (readEntries relative index seen items).2 := by
  induction items generalizing index position seen with
  | nil => cases hitem
  | cons head tail ih =>
      cases position with
      | zero =>
          cases hitem
          rw [readEntries_seen hread hseen]
          exact List.mem_cons_self
      | succ position =>
          rw [List.getElem?_cons_succ] at hitem
          rw [← Nat.add_assoc, Nat.add_right_comm]
          exact readEntries_rest fun later hlater => ih hitem (hlater _ hseen)

/-- The later of two entries with one identity is reported at its place. -/
theorem readEntries_duplicate {earlier : Nat} {other : Json} {first : ApprovedSkip}
    (hbefore : earlier < position) (hother : items[earlier]? = some other)
    (hfirst : readEntry other = .ok first) (hitem : items[position]? = some item)
    (hread : readEntry item = .ok approval) (hsame : first.identity = approval.identity) :
    ⟨relative, index + position, codes "duplicate-skip-approval", approval.identity⟩ ∈
      (readEntries relative index seen items).2 := by
  induction items generalizing index position earlier seen with
  | nil => cases hitem
  | cons head tail ih =>
      cases position with
      | zero => cases hbefore
      | succ position =>
          rw [List.getElem?_cons_succ] at hitem
          rw [← Nat.add_assoc, Nat.add_right_comm]
          cases earlier with
          | zero =>
              cases hother
              by_cases hseen : first.identity ∈ seen
              · apply readEntries_rest
                intro later hlater
                apply readEntries_repeated hitem hread
                rw [← hsame]
                exact hlater _ hseen
              · rw [readEntries_fresh hfirst hseen]
                apply readEntries_repeated hitem hread
                rw [hsame]
                exact List.mem_cons_self
          | succ earlier =>
              rw [List.getElem?_cons_succ] at hother
              exact readEntries_rest fun later _ =>
                ih (Nat.lt_of_succ_lt_succ hbefore) hother hitem

end

/-! ### The document -/

/-- Unless reading a document raises, its entries are read one by one, and there are no other
approvals. -/
theorem readApprovedSkips_split (document : SkipDocument) :
    (∃ others, readApprovedSkips document =
      .ok ((readEntries document.name 1 [] (entries document)).1,
        (readEntries document.name 1 [] (entries document)).2 ++ others)) ∨
    ∃ name raised, document = .raising name raised := by
  cases document with
  | absent => exact Or.inl ⟨[], rfl⟩
  | unreadable name error => exact Or.inl ⟨_, rfl⟩
  | raising name raised => exact Or.inr ⟨name, raised, rfl⟩
  | parsed name value =>
      left
      cases value with
      | arr items =>
          refine ⟨[], ?_⟩
          rw [List.append_nil]
          rfl
      | null => exact ⟨_, rfl⟩
      | bool value => exact ⟨_, rfl⟩
      | int value => exact ⟨_, rfl⟩
      | float value => exact ⟨_, rfl⟩
      | str value => exact ⟨_, rfl⟩
      | obj value => exact ⟨_, rfl⟩

theorem approvals_eq (package : Package) : package.approvals =
    (readEntries package.document.name 1 [] (entries package.document)).1 := by
  rw [Package.approvals]
  rcases readApprovedSkips_split package.document with ⟨others, hread⟩ | ⟨name, raised, hraising⟩
  · rw [hread]
  · rw [hraising]
    rfl

/-- An approval comes from an entry of the document. -/
theorem entry_of_mem {package : Package} {approval : ApprovedSkip}
    (hmem : approval ∈ package.approvals) :
    ∃ item ∈ entries package.document, WellFormed item approval.identity approval.reason := by
  rw [approvals_eq] at hmem
  obtain ⟨_, item, hitem, hread⟩ := mem_readEntries hmem
  exact ⟨item, hitem, readEntry_ok_iff.mp hread⟩

theorem lists_of_mem {package : Package} {approval : ApprovedSkip}
    (hmem : approval ∈ package.approvals) :
    Lists package.document approval.identity approval.reason := by
  obtain ⟨item, hitem, hentry⟩ := entry_of_mem hmem
  exact ⟨item, hitem, hentry.identityGiven, hentry.reasonGiven⟩

theorem approvals_unique (package : Package) :
    (package.approvals.map ApprovedSkip.identity).Nodup := by
  rw [approvals_eq]
  exact readEntries_unique

/-- Two approvals of one identity are one. -/
theorem approval_unique {package : Package} {identity left right : PyStr}
    (hleft : ⟨identity, left⟩ ∈ package.approvals) (hright : ⟨identity, right⟩ ∈ package.approvals) :
    left = right := by
  have hsame := List.inj_on_of_nodup_map (approvals_unique package) hleft hright rfl
  cases hsame
  rfl

/-- A document without findings approves the identities in it. -/
theorem Approves.identities {document : SkipDocument} {approvals : List ApprovedSkip}
    (happroves : Approves document approvals) :
    documentIdentities document = approvals.map ApprovedSkip.identity := by
  cases happroves with
  | absent => rfl
  | entries hentries hunique =>
      clear hunique
      rw [documentIdentities, PackageIntegrity.entries]
      induction hentries with
      | nil => rfl
      | cons hitem _ ih =>
          rw [List.filterMap_cons, (readEntry_ok_iff.mp hitem).identityGiven, List.map_cons, ih]

/-- A document without findings approves each identity for the reason in it. -/
theorem Approves.lists {document : SkipDocument} {approvals : List ApprovedSkip}
    {identity reason : PyStr} (happroves : Approves document approvals)
    (hlists : Lists document identity reason) : ⟨identity, reason⟩ ∈ approvals := by
  obtain ⟨item, hitem, hidentity, hreason⟩ := hlists
  cases happroves with
  | absent => cases hitem
  | entries hentries hunique =>
      clear hunique
      rw [PackageIntegrity.entries] at hitem
      induction hentries with
      | nil => cases hitem
      | @cons head approval _ _ hhead _ ih =>
          rcases List.mem_cons.mp hitem with rfl | hitem
          · have hentry := readEntry_ok_iff.mp hhead
            rw [hentry.identityGiven] at hidentity
            rw [hentry.reasonGiven] at hreason
            cases hidentity
            cases hreason
            exact List.mem_cons_self
          · exact List.mem_cons_of_mem _ (ih hitem)

end PackageIntegrity
