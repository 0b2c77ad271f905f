import Motrix.Lib.LikePattern
import Motrix.Plugin.StorageVersions

/-!
# The keys of a plugin under a prefix

The prefix goes into a LIKE pattern with its special letters escaped.  LIKE
does not tell the two cases of an ASCII letter apart, and no escape can.
-/

namespace Motrix.PluginStorage

open Motrix.Lib

/-- LIKE with a backslash for its escape. -/
def like : LikePattern.Alphabet Char where
  many := '%'
  one := '_'
  escape := '\\'
  fold := Char.toLower
  one_many := by decide
  escape_many := by decide
  escape_one := by decide

def escapeLike (text : String) : List Char :=
  text.toList.flatMap fun letter =>
    if letter == '\\' || letter == '%' || letter == '_' then ['\\', letter]
    else [letter]

namespace StorageTable

def keys (rows : StorageTable) (pluginId : String) (start : Option String) :
    List String :=
  match start with
  | some start =>
      let escaped := escapeLike start
      (rows.filter fun row =>
        row.pluginId == pluginId &&
          like.isMatch (escaped ++ ['%']) row.key.toList).map (·.key)
  | none => (rows.filter (·.pluginId == pluginId)).map (·.key)

variable {rows : StorageTable} {pluginId start key : String}

theorem escapeLike_literally (text : String) :
    escapeLike text = like.literally text.toList := rfl

theorem mem_keys :
    key ∈ rows.keys pluginId (some start) ↔
      key ∈ rows.keys pluginId none ∧
        start.toList.map Char.toLower <+: key.toList.map Char.toLower := by
  simp only [keys, escapeLike_literally, List.mem_map, List.mem_filter,
    Bool.and_eq_true]
  constructor
  · rintro ⟨row, ⟨member, owned, matched⟩, rfl⟩
    exact ⟨⟨row, ⟨member, owned⟩, rfl⟩,
      LikePattern.Alphabet.isMatch_literally _ _ |>.mp matched⟩
  · rintro ⟨⟨row, ⟨member, owned⟩, rfl⟩, starts⟩
    exact ⟨row, ⟨member, owned,
      LikePattern.Alphabet.isMatch_literally _ _ |>.mpr starts⟩, rfl⟩

/-- The keys are those that start with the prefix exactly when no key of the
plugin starts with it in other cases only. -/
theorem keys_startsWith_iff (rows : StorageTable) (pluginId start : String) :
    (∀ key, key ∈ rows.keys pluginId (some start) ↔
      key ∈ rows.keys pluginId none ∧ start.toList <+: key.toList) ↔
    ∀ key ∈ rows.keys pluginId none,
      start.toList.map Char.toLower <+: key.toList.map Char.toLower →
        start.toList <+: key.toList := by
  simp only [mem_keys]
  constructor
  · intro exact' key member starts
    exact ((exact' key).mp ⟨member, starts⟩).2
  · intro cased key
    constructor
    · rintro ⟨member, starts⟩
      exact ⟨member, cased key member starts⟩
    · rintro ⟨member, starts⟩
      exact ⟨member, starts.map Char.toLower⟩

theorem upperCaseKey_listed :
    ¬∀ rows pluginId start key,
      key ∈ StorageTable.keys rows pluginId (some start) ↔
        key ∈ StorageTable.keys rows pluginId none ∧
          start.toList <+: key.toList := by
  intro listed
  have token := listed
    [StorageRow.first ("p", "Token") "1" 0, StorageRow.first ("p", "to") "1" 0]
    "p" "t" "Token"
  revert token
  decide +kernel

end StorageTable

end Motrix.PluginStorage
