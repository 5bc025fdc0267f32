import Dimpl.AutoRun
import Dimpl.AutoSafety

/-!
# The version a ServerHello selects

An auto-sensing client looks at the first fragment of the first record of a datagram as if
it were the whole ServerHello. On a whole message it finds what the parser of DTLS 1.3 finds.
A first fragment that is not the whole message counts as DTLS 1.2, whatever is behind it.
-/

namespace Dimpl

open Nom Program

namespace Auto

section Reading

variable {body : Bytes} {pos : Nat}

theorem beValue_two (inside : pos + 2 ≤ body.length) :
    beValue ((body.drop pos).take 2) = u16At body pos := by
  have long : 2 ≤ (body.drop pos).length := by simp; omega
  have first : body.getD pos 0 = (body.drop pos).getD 0 0 := by
    simp [List.getD_eq_getElem?_getD, List.getElem?_drop]
  have second : body.getD (pos + 1) 0 = (body.drop pos).getD 1 0 := by
    simp [List.getD_eq_getElem?_getD, List.getElem?_drop]
  unfold u16At
  rw [first, second]
  match body.drop pos, long with
  | high :: low :: rest, _ => simp [beValue]

theorem u16At_lt : u16At body pos < 65536 := by
  have high := (body.getD pos 0).toNat_lt
  have low := (body.getD (pos + 1) 0).toNat_lt
  unfold u16At
  omega

end Reading

end Auto

namespace Dtls13

open Auto

section Extensions

variable {body : Bytes} {pos : Nat} {ext : Extension} {rest : Bytes}

/-- What an extension takes of the body it stands in. -/
theorem Extension.parse_at (inside : pos ≤ body.length)
    (parsed : Extension.parse pos (body.drop pos) = .ok (ext, rest)) :
    pos + 4 + u16At body (pos + 2) ≤ body.length ∧
      ext = ⟨⟨u16At body pos⟩, ⟨pos + 4, pos + 4 + u16At body (pos + 2)⟩⟩ ∧
      rest = body.drop (pos + 4 + u16At body (pos + 2)) := by
  unfold Extension.parse at parsed
  replace parsed := remaining_bind_ok parsed
  obtain ⟨type, _, isType, parsed⟩ := bind_ok parsed
  unfold ExtensionType.parse at isType
  obtain ⟨code, middle, isCode, isType⟩ := bind_ok isType
  obtain ⟨rfl, rfl⟩ := pure_ok isType
  obtain ⟨enough, rfl, rfl⟩ := beUint_ok isCode
  obtain ⟨length, _, isLength, parsed⟩ := bind_ok parsed
  obtain ⟨enoughMore, rfl, rfl⟩ := beUint_ok isLength
  obtain ⟨range, _, isRange, parsed⟩ := bind_ok parsed
  obtain ⟨fits, rfl, rfl⟩ := takeRange_eq isRange
  obtain ⟨rfl, rfl⟩ := pure_ok parsed
  simp only [List.length_drop, List.drop_drop] at enough enoughMore fits ⊢
  rw [beValue_two (by omega)] at fits ⊢
  rw [beValue_two (by omega)]
  have isStart : body.length - pos - (body.length - (pos + 2 + 2)) = 4 := by omega
  rw [isStart]
  refine ⟨by omega, rfl, ?_⟩
  congr 1

variable {fuel : Nat} {acc result : List Extension}

theorem Extension.push_mem {capacity : Nat} (pushed : Extension.push capacity acc ext = .ok result) :
    acc ⊆ result ∧ (∀ kept ∈ result, kept ∈ acc ∨ kept = ext) ∧
      (ext.extensionType.isSupported = true → ext ∈ result ∧
        ∀ existing ∈ acc, existing.extensionType ≠ ext.extensionType) := by
  unfold Extension.push pushBounded at pushed
  split at pushed
  · split at pushed
    · cases pushed
    · rename_i fresh
      split at pushed
      · cases pushed
        refine ⟨List.subset_append_left _ _, fun kept member => by simpa using member, fun _ => ⟨by simp, ?_⟩⟩
        intro existing member same
        exact fresh (List.any_eq_true.mpr ⟨existing, member, by simpa using same⟩)
      · cases pushed
  · rename_i unsupported
    cases pushed
    exact ⟨List.Subset.refl _, fun kept member => .inl member, fun supported => absurd supported unsupported⟩

/-- An extension of a type that is there already is refused, so no other one is kept. -/
theorem Extension.fold_unique {offset : Nat} {input : Bytes} {type : ExtensionType}
    (supported : type.isSupported = true)
    (folded : foldItemsLoop Extension.parse (Extension.push 5) fuel offset acc input = .ok (result, rest))
    (present : ∃ existing ∈ acc, existing.extensionType = type) :
    acc ⊆ result ∧ ∀ kept ∈ result, kept.extensionType = type → kept ∈ acc := by
  induction fuel generalizing offset acc input with
  | zero =>
      obtain ⟨rfl, _⟩ := pure_ok folded
      exact ⟨List.Subset.refl _, fun _ member _ => member⟩
  | succ fuel inductionHypothesis =>
      rcases foldItemsLoop_round folded with ⟨_, rfl⟩ | ⟨ext, middle, acc', _, pushed, folded⟩
      · exact ⟨List.Subset.refl _, fun _ member _ => member⟩
      · obtain ⟨grows, kept, fresh⟩ := Extension.push_mem pushed
        obtain ⟨existing, member, isType⟩ := present
        obtain ⟨more, only⟩ := inductionHypothesis folded ⟨existing, grows member, isType⟩
        refine ⟨fun _ member => more (grows member), fun found inResult isFound => ?_⟩
        rcases kept found (only found inResult isFound) with old | rfl
        · exact old
        · exact absurd (isType.trans isFound.symm) ((fresh (isFound ▸ supported)).2 existing member)

/-- The extension at a position, as the parser keeps it. -/
def Extension.versionsAt (body : Bytes) (found : Nat) : Extension :=
  ⟨.supportedVersions, ⟨found + 4, found + 4 + u16At body (found + 2)⟩⟩

/-- What the parser keeps of the `supported_versions` extensions is the first one. -/
theorem Extension.fold_finds (inside : pos ≤ body.length) (enough : body.length - pos ≤ fuel)
    (absent : ∀ existing ∈ acc, existing.extensionType ≠ .supportedVersions)
    (folded : foldItemsLoop Extension.parse (Extension.push 5) fuel pos acc (body.drop pos) =
      .ok (result, rest)) :
    (∃ found, Finds body body.length pos found ∧ Extension.versionsAt body found ∈ result ∧
        found + 4 + u16At body (found + 2) ≤ body.length ∧
        ∀ kept ∈ result, kept.extensionType = .supportedVersions →
          kept = Extension.versionsAt body found) ∨
      ((∀ found, ¬Finds body body.length pos found) ∧
        ∀ kept ∈ result, kept.extensionType ≠ .supportedVersions) := by
  induction fuel generalizing pos acc with
  | zero =>
      obtain ⟨rfl, _⟩ := pure_ok folded
      refine .inr ⟨fun found finds => ?_, absent⟩
      cases finds with
      | here room _ => omega
      | skip room _ _ => omega
  | succ fuel inductionHypothesis =>
      rcases foldItemsLoop_round folded with ⟨isEmpty, rfl⟩ | ⟨ext, middle, acc', parsed, pushed, folded⟩
      · have ends : body.length ≤ pos := List.drop_eq_nil_iff.mp isEmpty
        refine .inr ⟨fun found finds => ?_, absent⟩
        cases finds with
        | here room _ => omega
        | skip room _ _ => omega
      · obtain ⟨fits, rfl, rfl⟩ := Extension.parse_at inside parsed
        obtain ⟨grows, kept, fresh⟩ := Extension.push_mem pushed
        have next : pos + ((body.drop pos).length -
            (body.drop (pos + 4 + u16At body (pos + 2))).length) = pos + 4 + u16At body (pos + 2) := by
          simp only [List.length_drop]
          omega
        rw [next] at folded
        by_cases isVersions : u16At body pos = 0x002B
        · have isType : (⟨u16At body pos⟩ : ExtensionType) = .supportedVersions := by
            rw [isVersions]
            rfl
          rw [isType] at kept fresh
          have supported : ExtensionType.isSupported .supportedVersions = true := rfl
          obtain ⟨member, _⟩ := fresh supported
          obtain ⟨more, only⟩ := Extension.fold_unique supported folded ⟨_, member, rfl⟩
          refine .inl ⟨pos, .here (by omega) isVersions, more member, fits, fun found inResult isFound => ?_⟩
          rcases kept found (only found inResult isFound) with old | rfl
          · exact absurd isFound (absent found old)
          · rfl
        · have stillAbsent : ∀ existing ∈ acc', existing.extensionType ≠ .supportedVersions := by
            intro existing member isType
            rcases kept existing member with old | rfl
            · exact absent existing old isType
            · exact isVersions (congrArg ExtensionType.asU16 isType)
          rcases inductionHypothesis fits (by omega) stillAbsent folded with
            ⟨found, finds, inResult⟩ | ⟨nowhere, none⟩
          · exact .inl ⟨found, .skip (by omega) isVersions finds, inResult⟩
          · refine .inr ⟨fun found finds => ?_, none⟩
            cases finds with
            | here _ type => exact isVersions type
            | skip _ _ later => exact nowhere found later

end Extensions

end Dtls13

end Dimpl
