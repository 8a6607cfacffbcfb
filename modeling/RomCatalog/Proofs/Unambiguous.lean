import RomCatalog.Manifest
import RomCatalog.Proofs.Code
import RomCatalog.Proofs.DerivedIdentifiers
import RomCatalog.Proofs.EmbedPath

/-!
A manifest tells its ROMs apart. Names may hold anything, the marks of the generated code included,
and bindings are written without quotes. Still a derived identifier has no small letters, so the
first small letter behind it shows where it ends; then comes a literal, which shows its own end.
-/

namespace RomCatalog.Manifest

open Code

def lead (settings : Settings) : String :=
  match settings.placement with
  | .inFunction => keyword .inFunction ++ settings.bindingStart
  | .atModule => "#[allow(dead_code)]\n" ++ keyword .atModule ++ settings.bindingStart

def behind (settings : Settings) (rom : Rom) : List Char :=
  (typeMark settings.placement).toList ++
    ((Text.quote (settings.embedPath rom)).toList ++ ");\n".toList)

theorem toList_declaration (settings : Settings) (rom : Rom) :
    (declaration settings rom).toList =
      (lead settings).toList ++ (rom.identifier.toList ++ behind settings rom) := by
  unfold declaration lead behind
  cases settings.placement with
  | inFunction => simp [keyword, typeMark, Settings.binding]
  | atModule => simp [keyword, typeMark, Settings.binding]

theorem lead_append_ne (settings : Settings) (text others : List Char) :
    (lead settings).toList ++ text ≠ '\n' :: others := by
  unfold lead
  cases settings.placement with
  | inFunction => simp [keyword]
  | atModule => simp [keyword]

theorem takeWhile_identifier (placement : Placement) :
    ∃ shown, ∀ name text,
      ((Rom.identifierOf name).toList ++ ((typeMark placement).toList ++ text)).takeWhile
          (fun c => !c.isLower) = (Rom.identifierOf name).toList ++ shown := by
  have marked : ∃ shown, ∀ text, ((typeMark placement).toList ++ text).takeWhile
      (fun c => !c.isLower) = shown := by
    cases placement with
    | inFunction => exact ⟨": &'".toList, fun text => rfl⟩
    | atModule => exact ⟨": &[".toList, fun text => rfl⟩
  obtain ⟨shown, marked⟩ := marked
  refine ⟨shown, fun name text => ?_⟩
  rw [List.takeWhile_append_of_pos (by simpa using Rom.isLower_identifierOf name), marked]

theorem declaration_unique (settings : Settings) {left right : String} {after others : List Char}
    (same : (declaration settings (Rom.ofName left)).toList ++ after =
      (declaration settings (Rom.ofName right)).toList ++ others) :
    left = right ∧ after = others := by
  rw [toList_declaration, toList_declaration] at same
  simp only [behind, List.append_assoc, Rom.ofName] at same
  have started := List.append_cancel_left same
  obtain ⟨shown, takes⟩ := takeWhile_identifier settings.placement
  have sameIdentifier : (Rom.identifierOf left).toList = (Rom.identifierOf right).toList := by
    have taken := congrArg (List.takeWhile fun c => !c.isLower) started
    rw [takes, takes] at taken
    exact List.append_cancel_right taken
  rw [sameIdentifier] at started
  have quoted := congrArg Literal.read?
    (List.append_cancel_left (List.append_cancel_left started))
  rw [Literal.read?_quote, Literal.read?_quote, Option.some.injEq, Prod.mk.injEq] at quoted
  obtain ⟨samePath, sameRest⟩ := quoted
  have sameLength : left.length = right.length := by
    rw [← Rom.length_identifierOf left, ← Rom.length_identifierOf right,
      String.toList_inj.mp sameIdentifier]
  refine ⟨?_, List.append_cancel_left sameRest⟩
  exact settings.name_eq_of_embedPath_eq sameLength (String.toList_inj.mp samePath)

theorem declarations_cons (settings : Settings) (rom : Rom) (rest : List Rom) :
    (declarations settings (rom :: rest)).toList =
      (declaration settings rom).toList ++ (declarations settings rest).toList := by
  simp [declarations]

theorem declarations_unique (settings : Settings) (names others : List String)
    (after behind : List Char)
    (same : (declarations settings (names.map Rom.ofName)).toList ++ '\n' :: after =
      (declarations settings (others.map Rom.ofName)).toList ++ '\n' :: behind) :
    names = others := by
  have none : (declarations settings []).toList = [] := rfl
  induction names generalizing others with
  | nil =>
      cases others with
      | nil => rfl
      | cons other others =>
          rw [List.map_nil, none, List.map_cons, declarations_cons, toList_declaration] at same
          simp only [List.append_assoc, List.nil_append] at same
          exact absurd same.symm (lead_append_ne settings _ _)
  | cons name names ih =>
      cases others with
      | nil =>
          rw [List.map_nil, none, List.map_cons, declarations_cons, toList_declaration] at same
          simp only [List.append_assoc, List.nil_append] at same
          exact absurd same (lead_append_ne settings _ _)
      | cons other others =>
          rw [List.map_cons, List.map_cons, declarations_cons, declarations_cons,
            List.append_assoc, List.append_assoc] at same
          obtain ⟨first, rest⟩ := declaration_unique settings same
          rw [first, ih others rest]

theorem text_eq_iff (settings : Settings) (names others : List String) :
    text settings (names.map Rom.ofName) = text settings (others.map Rom.ofName) ↔
      names = others := by
  constructor
  · intro same
    have characters := congrArg String.toList same
    simp only [text, String.toList_append] at characters
    exact declarations_unique settings names others _ _ (by simpa using characters)
  · rintro rfl
    rfl

-- Identifiers that are given, not derived, do not tell a name from a whole path.
example :
    let settings := { Settings.default with root := Path.ofString "/games", embedding := .absolute }
    text settings [⟨"PONG", "PONG"⟩] = text settings [⟨"/games/PONG", "PONG"⟩] := by
  decide +kernel

end RomCatalog.Manifest
