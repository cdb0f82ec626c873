import Mathlib.Logic.Function.Basic
import TxWorkload.Proofs.Config.Lookup

/-!
# Keys — lists of keys that read back

A list of keys is written with commas between them. Blanks around the keys, and blank items among
them, make no difference to what is read. So the keys of any text are read again from what they are
written as, and there are none exactly in a text of commas and blanks.
-/

namespace TxWorkload
namespace Config

open Text (Bare Trims isBlank)

/-! ## Keys and items -/

/-- Whether a text can be a key of a list: there is something in it, but no comma, and no blank at
either end. -/
structure IsKey (key : String) : Prop where
  nonempty : key ≠ ""
  no_comma : ',' ∉ key.toList
  bare : Bare key.toList

instance (key : String) : Decidable (IsKey key) :=
  decidable_of_iff (key ≠ "" ∧ ',' ∉ key.toList ∧ Bare key.toList)
    ⟨fun h => ⟨h.1, h.2.1, h.2.2⟩, fun h => ⟨h.nonempty, h.no_comma, h.bare⟩⟩

/-- Whether items are the given keys in order, with blanks around each of them, and blank items
anywhere between. -/
inductive Spread : List String → List (List Char) → Prop
  | nil : Spread [] []
  | blank {keys : List String} {item : List Char} {items : List (List Char)}
      (hblank : ∀ c ∈ item, isBlank c = true) (h : Spread keys items) :
      Spread keys (item :: items)
  | key {key : String} {keys : List String} {front back : List Char} {items : List (List Char)}
      (hfront : ∀ c ∈ front, isBlank c = true) (hback : ∀ c ∈ back, isBlank c = true)
      (h : Spread keys items) :
      Spread (key :: keys) ((front ++ key.toList ++ back) :: items)

/-- The keys of items: what is left of them, if anything is. -/
def keysOf (items : List (List Char)) : List String :=
  (items.map fun item => String.ofList (Text.trimList item)).filter fun key => !key.isEmpty

variable {keys : List String} {item : List Char} {items : List (List Char)}

theorem keyList_eq (raw : String) : keyList raw = keysOf (Text.splitList ',' raw.toList) := by
  rw [keyList, keysOf, Text.split, List.map_map]
  simp only [Function.comp_def, Text.trim, String.toList_ofList]

theorem keysOf_cons_blank (h : ∀ c ∈ item, isBlank c = true) :
    keysOf (item :: items) = keysOf items := by
  rw [keysOf, List.map_cons, Text.trimList_eq_nil_iff.2 h]
  rfl

theorem keysOf_cons_key {key : String} (hne : key ≠ "") (h : Trims item key.toList) :
    keysOf (item :: items) = key :: keysOf items := by
  have hkey : (!key.isEmpty) = true := by simpa using hne
  rw [keysOf, List.map_cons, Text.trimList_eq_iff.2 h, String.ofList_toList, List.filter_cons,
    if_pos hkey]
  rfl

/-- The keys of items are those that were spread among them. -/
theorem keysOf_of_spread (h : Spread keys items) (hkeys : ∀ key ∈ keys, IsKey key) :
    keysOf items = keys := by
  induction h with
  | nil => rfl
  | blank hblank _ ih =>
      rw [keysOf_cons_blank hblank]
      exact ih hkeys
  | @key key keys front back items hfront hback _ ih =>
      have hkey := hkeys key List.mem_cons_self
      rw [keysOf_cons_key hkey.nonempty ⟨front, back, rfl, hfront, hback, hkey.bare⟩,
        ih fun key hmem => hkeys key (List.mem_cons_of_mem _ hmem)]

/-- All items are spread from the keys of them. -/
theorem spread_keysOf (items : List (List Char)) : Spread (keysOf items) items := by
  induction items with
  | nil => exact .nil
  | cons item items ih =>
      by_cases hblank : ∀ c ∈ item, isBlank c = true
      · rw [keysOf_cons_blank hblank]
        exact .blank hblank ih
      · let key := String.ofList (Text.trimList item)
        have hcore : key.toList = Text.trimList item := String.toList_ofList
        have hne : key ≠ "" := by
          intro hempty
          rw [hempty] at hcore
          exact hblank (Text.trimList_eq_nil_iff.1 hcore.symm)
        have htrims : Trims item key.toList := hcore ▸ Text.trims_trimList item
        rw [keysOf_cons_key hne htrims]
        -- What trimming has cut off is the padding of the key.
        rcases htrims with ⟨front, back, hitem, hfront, hback, -⟩
        rw [hitem]
        exact .key hfront hback ih

theorem isKey_of_mem_keysOf {key : String} (hcomma : ∀ item ∈ items, ',' ∉ item)
    (h : key ∈ keysOf items) : IsKey key := by
  rcases List.mem_filter.1 h with ⟨hmem, hne⟩
  rcases List.mem_map.1 hmem with ⟨item, hitem, rfl⟩
  have htrims := Text.trims_trimList item
  refine ⟨by simpa using hne, ?_, ?_⟩
  · rw [String.toList_ofList]
    exact fun hmem => hcomma item hitem (htrims.subset hmem)
  · rw [String.toList_ofList]
    exact htrims.bare

/-- The items of keys have no comma in them. -/
theorem no_comma_of_spread (h : Spread keys items) (hkeys : ∀ key ∈ keys, IsKey key) :
    ∀ item ∈ items, ',' ∉ item := by
  have hblanks : ∀ blanks : List Char, (∀ c ∈ blanks, isBlank c = true) → ',' ∉ blanks := by
    intro blanks hblanks hmem
    exact absurd (hblanks _ hmem) (by decide)
  induction h with
  | nil => nofun
  | blank hblank _ ih =>
      intro item hitem
      rcases List.mem_cons.1 hitem with rfl | hitem
      · exact hblanks _ hblank
      · exact ih hkeys item hitem
  | @key key keys front back items hfront hback _ ih =>
      intro item hitem
      rcases List.mem_cons.1 hitem with rfl | hitem
      · simp [hblanks front hfront, hblanks back hback, (hkeys key List.mem_cons_self).no_comma]
      · exact ih (fun key hmem => hkeys key (List.mem_cons_of_mem _ hmem)) item hitem

/-! ## Texts -/

/-- The keys of a text are those that it is spread from. -/
theorem keyList_eq_iff {text : String} :
    keyList text = keys ↔ (∀ key ∈ keys, IsKey key) ∧
      ∃ items, Spread keys items ∧ text.toList = [','].intercalate items := by
  rw [keyList_eq]
  constructor
  · rintro rfl
    refine ⟨fun key => isKey_of_mem_keysOf fun item => Text.not_mem_of_mem_splitList, ?_⟩
    exact ⟨_, spread_keysOf _, (Text.intercalate_splitList ',' text.toList).symm⟩
  · rintro ⟨hkeys, items, hspread, htext⟩
    rw [htext]
    cases items with
    | nil =>
        -- Without items the text is empty, and is read as one empty item.
        cases hspread
        rfl
    | cons item items =>
        rw [Text.splitList_intercalate (List.cons_ne_nil _ _) (no_comma_of_spread hspread hkeys)]
        exact keysOf_of_spread hspread hkeys

theorem keysOf_eq_nil_iff :
    keysOf items = [] ↔ ∀ item ∈ items, ∀ c ∈ item, isBlank c = true := by
  rw [keysOf, List.filter_eq_nil_iff]
  simp [Text.trimList_eq_nil_iff]

/-- There are no keys in a text exactly if it consists of commas and blanks. -/
theorem keyList_eq_nil_iff {text : String} :
    keyList text = [] ↔ ∀ c ∈ text.toList, c = ',' ∨ isBlank c = true := by
  rw [keyList_eq, keysOf_eq_nil_iff]
  constructor
  · intro h c hc
    by_cases hcomma : c = ','
    · exact .inl hcomma
    · rcases Text.exists_piece_iff.2 ⟨hc, hcomma⟩ with ⟨piece, hpiece, hmem⟩
      exact .inr (h piece hpiece c hmem)
  · intro h piece hpiece c hmem
    rcases Text.exists_piece_iff.1 ⟨piece, hpiece, hmem⟩ with ⟨hc, hcomma⟩
    exact (h c hc).resolve_left hcomma

theorem spread_map_toList (keys : List String) : Spread keys (keys.map String.toList) := by
  induction keys with
  | nil => exact .nil
  | cons key keys ih =>
      have hkey : key.toList = [] ++ key.toList ++ [] := by simp
      rw [List.map_cons, hkey]
      exact .key nofun nofun ih

/-- Keys are read back from the text in which commas join them. -/
theorem keyList_intercalate (hkeys : ∀ key ∈ keys, IsKey key) :
    keyList (",".intercalate keys) = keys :=
  keyList_eq_iff.2 ⟨hkeys, _, spread_map_toList keys, String.toList_intercalate⟩

theorem keys?_eq (text : String) :
    keys? text = if keyList text = [] then none else some (keyList text) := by
  unfold keys?
  cases keyList text <;> rfl

/-! ## Settings -/

variable {lookup : String → Option String} {config : Config} {text : String}

theorem accountKeys_eq (hlookup : lookup "ACCOUNT_KEYS" = some text)
    (h : ofLookup lookup = .ok config) :
    config.accountKeys = if keyList text = [] then none else some (keyList text) := by
  rcases exists_interval h with ⟨number, -, rfl, -⟩
  rw [given, hlookup, Option.bind_some, keys?_eq]

/-- Another text of keys changes the keys, and nothing else. -/
theorem ofLookup_update (h : ofLookup lookup = .ok config) (text : String) :
    ofLookup (Function.update lookup "ACCOUNT_KEYS" (some text)) =
      .ok { config with accountKeys := keys? text } := by
  rcases exists_interval h with ⟨number, hinterval, rfl, hflaw⟩
  have hinterval' : Interval (Function.update lookup "ACCOUNT_KEYS" (some text)) number := by
    cases hinterval with
    | unset hnone => exact .unset hnone
    | given hraw hnumber => exact .given hraw hnumber
  have hgiven : given (Function.update lookup "ACCOUNT_KEYS" (some text))
      (.ofSecs (.ofNat number)) =
        { given lookup (.ofSecs (.ofNat number)) with accountKeys := keys? text } := by
    simp [given, Function.update]
  -- The check does not look at the keys.
  have hflaw' : ({ given lookup (.ofSecs (.ofNat number)) with
      accountKeys := keys? text } : Config).flaw? = none := hflaw
  rw [ofLookup_of_interval hinterval', hgiven, checked, hflaw']

/-- Settings that come of a text of keys hold the keys that the text is spread from, or none if
there are none, which is so exactly in a text of commas and blanks. What they hold are keys, and
written with commas between them they give the same settings again. Any other text of keys is read
as well, and makes no difference to the other settings. -/
theorem keys_read_back (lookup : String → Option String) (config : Config) (text : String)
    (hlookup : lookup "ACCOUNT_KEYS" = some text) (hok : ofLookup lookup = .ok config) :
    (∀ keys items, (∀ key ∈ keys, IsKey key) → Spread keys items →
      text.toList = [','].intercalate items →
      config.accountKeys = if keys = [] then none else some keys) ∧
    (config.accountKeys = none ↔ ∀ c ∈ text.toList, c = ',' ∨ isBlank c = true) ∧
    (∀ keys, config.accountKeys = some keys →
      keys ≠ [] ∧ (∀ key ∈ keys, IsKey key) ∧
      ofLookup (Function.update lookup "ACCOUNT_KEYS" (some (",".intercalate keys))) =
        .ok config) ∧
    ∀ other, ∃ keys, ofLookup (Function.update lookup "ACCOUNT_KEYS" (some other)) =
      .ok { config with accountKeys := keys } := by
  have hkeys := accountKeys_eq hlookup hok
  refine ⟨fun keys items hall hspread htext => ?_, ?_, fun keys hsome => ?_,
    fun other => ⟨_, ofLookup_update hok other⟩⟩
  · rw [hkeys, keyList_eq_iff.2 ⟨hall, items, hspread, htext⟩]
  · rw [hkeys, ← keyList_eq_nil_iff]
    split <;> simp [*]
  · rw [hsome] at hkeys
    split at hkeys
    · cases hkeys
    · rename_i hne
      obtain rfl := Option.some.inj hkeys
      -- What was read is keys already, so that it is read back as it stands.
      have hall := (keyList_eq_iff.1 rfl : (∀ key ∈ keyList text, IsKey key) ∧ _).1
      refine ⟨hne, hall, ?_⟩
      have hback : keys? (",".intercalate (keyList text)) = config.accountKeys := by
        rw [keys?_eq, keyList_intercalate hall, if_neg hne, hsome]
      rw [ofLookup_update hok, hback]

/-- Two keys among stray commas and blanks, some of them outside ASCII. -/
theorem keys_read_back_two :
    let text := " ,\u20030x01\t,,\u00a0, a b ,"
    let lookup := fun name => if name = "ACCOUNT_KEYS" then some text else none
    let keys := ["0x01", "a b"]
    let items := [[' '], ['\u2003', '0', 'x', '0', '1', '\t'], [], ['\u00a0'],
      [' ', 'a', ' ', 'b', ' '], []]
    ∃ config, ofLookup lookup = .ok config ∧ lookup "ACCOUNT_KEYS" = some text ∧
      (∀ key ∈ keys, IsKey key) ∧ Spread keys items ∧ text.toList = [','].intercalate items ∧
      config.accountKeys = some keys ∧
      ofLookup (Function.update lookup "ACCOUNT_KEYS" (some "0x01,a b")) = .ok config := by
  intro text lookup keys items
  have hburst : true = true ↔ ∀ raw, lookup "ENABLE_BURST_MODE" = some raw → Affirms raw :=
    iff_of_true rfl nofun
  have hok := Verdict.ofLookup_eq
    (.accepted (.unset rfl) (by nofun) (by nofun) (by decide) hburst)
  rcases keys_read_back lookup _ text rfl hok with ⟨hread, -, hback, -⟩
  have hall : ∀ key ∈ keys, IsKey key := by decide
  have hkeysOf : keysOf items = keys := by decide
  have hspread : Spread keys items := hkeysOf ▸ spread_keysOf items
  have htext : text.toList = [','].intercalate items := by decide
  have hsome := hread keys items hall hspread htext
  exact ⟨_, hok, rfl, hall, hspread, htext, hsome, (hback keys hsome).2.2⟩

end Config
end TxWorkload
