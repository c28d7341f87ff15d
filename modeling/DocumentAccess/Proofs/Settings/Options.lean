import DocumentAccess.Proofs.Settings.Address
import Mathlib.Data.List.Nodup

/-!
# The options of an address

The query of an address is read as options between `&` signs, each a key and a value
around its first `=` sign, and the values are percent-decoded (`Address.options`). What
settings ask for is `Settings.Asks`, and a reading conveys it if it holds each option
that is asked for once, with its value, and nothing else (`Settings.Conveys`).

The values are written into the address as they are. So one with a `&` in it is read as
several options, and one that looks encoded as another value.
**`Settings.conveys_options_iff`**: the address conveys what is asked for exactly if no
value has either.
-/

namespace DocumentAccess

/-! ## Reading options -/

namespace Address

/-- An option by its key and its value, if it has one that can be decoded. -/
def option (plusIsBlank : Bool) (cs : List Char) : String × Option String :=
  match Text.cutAt '=' cs with
  | some (key, value) => (.ofList key, Text.percentDecode? plusIsBlank (.ofList value))
  | none => (.ofList cs, none)

/-- The options of an address, from left to right. -/
def options (plusIsBlank : Bool) (a : Address) : List (String × Option String) :=
  match a.query with
  | some query => (Text.splitChars '&' query.toList).map (option plusIsBlank)
  | none => []

theorem option_append {key value : String} {plusIsBlank : Bool} (h : '=' ∉ key.toList) :
    option plusIsBlank (key ++ "=" ++ value).toList
      = (key, Text.percentDecode? plusIsBlank value) := by
  have hchars : (key ++ "=" ++ value).toList = key.toList ++ '=' :: value.toList := by simp
  rw [hchars, option, cutAt_append h]
  simp

end Address

namespace Settings

variable {s : Settings} {plusIsBlank : Bool} {key value value' : String}

/-! ## What is asked for -/

/-- The options that settings ask for: how to log in, if there are credentials, an encrypted
    connection, the source of the credentials and the replica set. -/
inductive Asks (s : Settings) : String → String → Prop
  | mechanism {user password mechanism : String} : s.HasCredentials user password →
      s.authMechanism = some mechanism → mechanism ≠ "" → Asks s "authMechanism" mechanism
  | standardMechanism {user password : String} : s.HasCredentials user password →
      s.authMechanism = none ∨ s.authMechanism = some "" → Asks s "authMechanism" "DEFAULT"
  | encryption : s.ssl = true → Asks s "ssl" "true"
  | source {source : String} : s.authSource = some source → source ≠ "" →
      Asks s "authSource" source
  | replicaSet {name : String} : s.replicaSet = some name → name ≠ "" → Asks s "replicaSet" name

/-- A reading of options holds what settings ask for, each option once, and nothing else. -/
structure Conveys (s : Settings) (read : List (String × Option String)) : Prop where
  once : (read.map (·.1)).Nodup
  mem_iff : ∀ key v, (key, v) ∈ read ↔ ∃ value, v = some value ∧ s.Asks key value

/-- A value that is read as it is written. -/
structure IsLiteral (plusIsBlank : Bool) (value : String) : Prop where
  noSeparator : '&' ∉ value.toList
  noEscape : ¬ Text.HoldsEscape value.toList
  noPlus : plusIsBlank = true → '+' ∉ value.toList

theorem isSome_credentials?_iff :
    s.credentials?.isSome = true ↔ ∃ user password, s.HasCredentials user password := by
  rw [Option.isSome_iff_exists, Prod.exists]
  exact exists_congr fun user => exists_congr fun password => credentials?_eq_some_iff

theorem filled_eq_none_iff {o : Option String} : filled o = none ↔ o = none ∨ o = some "" := by
  cases o with
  | none => simp [filled]
  | some t => simp [filled, Option.filter_eq_none_iff]

/-- The options are written that are asked for. -/
theorem mem_urlOptions_iff : (key, value) ∈ s.urlOptions ↔ s.Asks key value := by
  have htext (name : String) (o : Option String) :
      (key, value) ∈ ((filled o).map (name, ·)).toList
        ↔ key = name ∧ o = some value ∧ value ≠ "" := by
    rw [Option.mem_toList, Option.map_eq_some_iff, ← filled_eq_some_iff]
    constructor
    · rintro ⟨t, ht, hpair⟩
      cases hpair
      exact ⟨rfl, ht⟩
    · rintro ⟨rfl, ht⟩
      exact ⟨value, ht, rfl⟩
  rw [urlOptions]
  simp only [List.mem_append, htext, or_assoc]
  constructor
  · rintro (h | h | ⟨rfl, hsource, hne⟩ | ⟨rfl, hname, hne⟩)
    · split at h
      case isTrue hcredentials =>
        obtain ⟨user, password, hcredentials⟩ := isSome_credentials?_iff.mp hcredentials
        cases List.mem_singleton.mp h
        cases hmechanism : filled s.authMechanism with
        | none => exact .standardMechanism hcredentials (filled_eq_none_iff.mp hmechanism)
        | some m =>
            obtain ⟨hm, hne⟩ := filled_eq_some_iff.mp hmechanism
            exact .mechanism hcredentials hm hne
      case isFalse => exact nomatch h
    · split at h
      case isTrue hssl =>
        cases List.mem_singleton.mp h
        exact .encryption hssl
      case isFalse => exact nomatch h
    · exact .source hsource hne
    · exact .replicaSet hname hne
  · intro h
    cases h with
    | mechanism hcredentials hm hne =>
        rw [if_pos (isSome_credentials?_iff.mpr ⟨_, _, hcredentials⟩),
          filled_eq_some_iff.mpr ⟨hm, hne⟩]
        exact .inl (List.mem_singleton_self _)
    | standardMechanism hcredentials hm =>
        rw [if_pos (isSome_credentials?_iff.mpr ⟨_, _, hcredentials⟩),
          filled_eq_none_iff.mpr hm]
        exact .inl (List.mem_singleton_self _)
    | encryption hssl =>
        rw [if_pos hssl]
        exact .inr (.inl (List.mem_singleton_self _))
    | source hsource hne => exact .inr (.inr (.inl ⟨rfl, hsource, hne⟩))
    | replicaSet hname hne => exact .inr (.inr (.inr ⟨rfl, hname, hne⟩))

theorem nodup_urlOptions : (s.urlOptions.map (·.1)).Nodup := by
  have htext (name : String) (o : Option String) :
      (((filled o).map (name, ·)).toList.map (·.1)).Sublist [name] := by
    cases filled o with
    | none => exact List.nil_sublist _
    | some t => exact List.Sublist.refl _
  have hswitch {p : Prop} [Decidable p] (o : String × String) :
      ((if p then [o] else []).map (·.1)).Sublist [o.1] := by
    split
    · exact List.Sublist.refl _
    · exact List.nil_sublist _
  have hkeys : (s.urlOptions.map (·.1)).Sublist
      (["authMechanism"] ++ ["ssl"] ++ ["authSource"] ++ ["replicaSet"]) := by
    rw [urlOptions, List.map_append, List.map_append, List.map_append]
    exact (((hswitch _).append (hswitch _)).append (htext _ _)).append (htext _ _)
  exact hkeys.nodup (by decide)

/-- No two values are asked for under one key. -/
theorem Asks.value_eq (h : s.Asks key value) (h' : s.Asks key value') : value = value' := by
  have hpairs := List.inj_on_of_nodup_map nodup_urlOptions
    (mem_urlOptions_iff.mpr h) (mem_urlOptions_iff.mpr h') rfl
  exact congrArg Prod.snd hpairs

theorem Asks.key_plain (h : s.Asks key value) : '&' ∉ key.toList ∧ '=' ∉ key.toList := by
  cases h <;> simp

/-- The options that are written convey what is asked for. -/
theorem conveys_urlOptions : s.Conveys (s.urlOptions.map fun o => (o.1, some o.2)) := by
  refine ⟨?_, fun key v => ?_⟩
  · rw [List.map_map]
    exact nodup_urlOptions
  · rw [List.mem_map]
    constructor
    · rintro ⟨⟨name, value⟩, ho, hpair⟩
      cases hpair
      exact ⟨value, rfl, mem_urlOptions_iff.mp ho⟩
    · rintro ⟨value, rfl, hasked⟩
      exact ⟨(key, value), mem_urlOptions_iff.mpr hasked, rfl⟩

/-- What conveys the settings are the options that are written, in some order. -/
theorem Conveys.length_eq {read : List (String × Option String)} (h : s.Conveys read) :
    read.length = s.urlOptions.length := by
  have hperm : read.Perm (s.urlOptions.map fun o => (o.1, some o.2)) := by
    refine (List.perm_ext_iff_of_nodup (h.once.of_map _) (conveys_urlOptions.once.of_map _)).mpr ?_
    rintro ⟨key, v⟩
    rw [h.mem_iff, conveys_urlOptions.mem_iff]
  rw [hperm.length_eq, List.length_map]

/-! ## What is read -/

/-- Each written option is read as the pieces between its `&` signs. -/
theorem options_address :
    s.address.options plusIsBlank = s.urlOptions.flatMap fun o =>
      (Text.splitChars '&' (o.1 ++ "=" ++ o.2).toList).map (Address.option plusIsBlank) := by
  rw [Address.options, address]
  cases hoptions : s.urlOptions with
  | nil => rfl
  | cons o os =>
      have hpieces : ((o :: os).map fun o => (o.1 ++ "=" ++ o.2).toList) ≠ [] :=
        List.cons_ne_nil _ _
      have hchars : ("&".intercalate ((o :: os).map fun o => o.1 ++ "=" ++ o.2)).toList
          = ['&'].intercalate ((o :: os).map fun o => (o.1 ++ "=" ++ o.2).toList) := by
        rw [String.toList_intercalate, List.map_map]
        rfl
      show (Text.splitChars '&'
        ("&".intercalate ((o :: os).map fun o => o.1 ++ "=" ++ o.2)).toList).map _ = _
      rw [hchars, splitChars_joined hpieces, List.flatMap_map, List.map_flatMap]

/-- Each `&` sign in a value makes one option more. -/
theorem length_options :
    (s.address.options plusIsBlank).length
      = s.urlOptions.length + (s.urlOptions.flatMap (·.2.toList)).count '&' := by
  have hkeys : ∀ o ∈ s.urlOptions, '&' ∉ o.1.toList := fun o ho =>
    (mem_urlOptions_iff.mp ho).key_plain.1
  rw [options_address]
  revert hkeys
  induction s.urlOptions with
  | nil => exact fun _ => rfl
  | cons o os ih =>
      intro hkeys
      obtain ⟨hkey, hkeys⟩ := List.forall_mem_cons.mp hkeys
      -- The signs of an option are those of its value, as its key has none.
      have hcount : (o.1 ++ "=" ++ o.2).toList.count '&' = o.2.toList.count '&' := by
        simp [List.count_append, List.count_eq_zero.mpr hkey]
      rw [List.flatMap_cons, List.flatMap_cons, List.length_append, List.length_map,
        length_splitChars, hcount, ih hkeys, List.count_append, List.length_cons]
      omega

theorem options_of_unseparated (h : ∀ key value, s.Asks key value → '&' ∉ value.toList) :
    s.address.options plusIsBlank
      = s.urlOptions.map fun o => (o.1, Text.percentDecode? plusIsBlank o.2) := by
  rw [options_address, List.map_eq_flatMap]
  refine List.flatMap_congr fun o ho => ?_
  have hasked := mem_urlOptions_iff.mp ho
  have hpiece : '&' ∉ (o.1 ++ "=" ++ o.2).toList := by
    simp [hasked.key_plain.1, h _ _ hasked]
  rw [splitChars_of_not_mem hpiece, List.map_singleton,
    Address.option_append hasked.key_plain.2]

/-- **The address conveys the options of the settings exactly if each value is read as it is
    written.** It is read at all if no slash stands in a host or a port. A value with a `&` sign
    or an escape, or with a plus sign where this is read as a blank, makes other options of
    those that are asked for, and there is no other way to lose, change or add one. -/
theorem conveys_options_iff (h : ∀ t ∈ s.hostsAndPorts, '/' ∉ t.toList) (plusIsBlank : Bool) :
    ∃ a, Address.ofText? s.url = some a
      ∧ (s.Conveys (a.options plusIsBlank)
        ↔ ∀ key value, s.Asks key value → IsLiteral plusIsBlank value) := by
  refine ⟨s.address, ofText?_url h, fun hconveys => ?_, fun hliteral => ?_⟩
  · -- No more options are read than are written, so no value is cut.
    have hseparators : ∀ key value, s.Asks key value → '&' ∉ value.toList := by
      intro key value hasked
      have hcount : (s.urlOptions.flatMap (·.2.toList)).count '&' = 0 := by
        have hlength := hconveys.length_eq
        rw [length_options] at hlength
        omega
      intro hmem
      refine List.count_eq_zero.mp hcount (List.mem_flatMap.mpr ⟨(key, value), ?_, hmem⟩)
      exact mem_urlOptions_iff.mpr hasked
    -- What is read under a key is the decoded value, and one value is asked for under it.
    intro key value hasked
    have hread : (key, Text.percentDecode? plusIsBlank value) ∈ s.address.options plusIsBlank := by
      rw [options_of_unseparated hseparators]
      exact List.mem_map.mpr ⟨(key, value), mem_urlOptions_iff.mpr hasked, rfl⟩
    obtain ⟨value', hdecoded, hasked'⟩ := (hconveys.mem_iff _ _).mp hread
    obtain rfl := hasked.value_eq hasked'
    obtain ⟨hescape, hplus⟩ := Text.percentDecode?_eq_self_iff.mp hdecoded
    exact ⟨hseparators key value hasked, hescape, hplus⟩
  · have hread : s.address.options plusIsBlank = s.urlOptions.map fun o => (o.1, some o.2) := by
      rw [options_of_unseparated fun key value hasked => (hliteral key value hasked).noSeparator]
      refine List.map_congr_left fun o ho => ?_
      have hvalue := hliteral _ _ (mem_urlOptions_iff.mp ho)
      rw [Text.percentDecode?_eq_self_iff.mpr ⟨hvalue.noEscape, hvalue.noPlus⟩]
    rw [hread]
    exact conveys_urlOptions

/-- A log-in against a source of credentials in an encrypted replica set. -/
theorem conveys_options_iff_clustered :
    (∀ t ∈ clustered.hostsAndPorts, '/' ∉ t.toList)
      ∧ ∃ a, Address.ofText? clustered.url = some a ∧ clustered.Conveys (a.options true) := by
  have hfree : ∀ t ∈ clustered.hostsAndPorts, '/' ∉ t.toList := by
    simp [hostsAndPorts, clustered, Port.plain]
  have hmarks : ∀ o ∈ clustered.urlOptions,
      '&' ∉ o.2.toList ∧ '%' ∉ o.2.toList ∧ '+' ∉ o.2.toList := by decide
  obtain ⟨a, hread, hconveys⟩ := conveys_options_iff hfree true
  refine ⟨hfree, a, hread, hconveys.mpr fun key value hasked => ?_⟩
  obtain ⟨hseparator, hpercent, hplus⟩ := hmarks _ (mem_urlOptions_iff.mpr hasked)
  exact ⟨hseparator, Text.not_holdsEscape hpercent, fun _ => hplus⟩

/-- Encryption that is asked for, with a source of credentials that switches it off. -/
def downgraded : Settings :=
  { clustered with authSource := some "admin&ssl=false", replicaSet := some "50%25" }

/-- A value adds an option that contradicts another one, and a value is decoded that was not
    encoded. -/
theorem options_downgraded :
    (∀ t ∈ downgraded.hostsAndPorts, '/' ∉ t.toList)
      ∧ ∀ plusIsBlank, ∃ a, Address.ofText? downgraded.url = some a
        ∧ a.options plusIsBlank
          = [("authMechanism", some "DEFAULT"), ("ssl", some "true"), ("authSource", some "admin"),
            ("ssl", some "false"), ("replicaSet", some "50%")]
        ∧ ¬ downgraded.Conveys (a.options plusIsBlank) := by
  have hfree : ∀ t ∈ downgraded.hostsAndPorts, '/' ∉ t.toList := by
    simp [hostsAndPorts, downgraded, clustered, Port.plain]
  refine ⟨hfree, fun plusIsBlank => ⟨_, ofText?_url hfree, ?_, fun hconveys => ?_⟩⟩
  · have hpieces : downgraded.address.options plusIsBlank
        = [("authMechanism", "DEFAULT"), ("ssl", "true"), ("authSource", "admin"), ("ssl", "false"),
            ("replicaSet", "50%25")].map
          fun o => (o.1, Text.percentDecode? plusIsBlank o.2) := rfl
    have hplain (t : String) (h : '%' ∉ t.toList ∧ '+' ∉ t.toList) :
        Text.percentDecode? plusIsBlank t = some t :=
      Text.percentDecode?_eq_self_iff.mpr ⟨Text.not_holdsEscape h.1, fun _ => h.2⟩
    have hescape : Text.percentDecode? plusIsBlank "50%25" = some "50%" := by
      rw [Text.percentDecode?, Text.fromUTF8?_eq_some_iff]
      cases plusIsBlank <;> rfl
    rw [hpieces]
    simp [hplain, hescape]
  · -- Four options are asked for, and five are read.
    have hlength := hconveys.length_eq
    rw [length_options] at hlength
    exact absurd hlength (by decide)

end Settings

end DocumentAccess
