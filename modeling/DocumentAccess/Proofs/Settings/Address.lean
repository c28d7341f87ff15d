import DocumentAccess.Settings
import DocumentAccess.Proofs.Text.Percent
import DocumentAccess.Proofs.Text.Pieces

/-!
# Addresses can be read back

An address is read part by part (`Address.ofText?`): the scheme, the authority up to
the first slash, and the query behind it if there is one. The authority names a user
and a password, percent-encoded, and the places to reach. As neither the scheme nor
the authority holds what ends it, an address that was written is read back
(`Address.ofText?_text`).

**`Settings.url_names_places`**: the address of some settings names the user, the
password and each host with its port.
-/

namespace DocumentAccess

/-! ## Addresses -/

/-- The parts of an address. -/
structure Address where
  scheme : String
  authority : String
  query : Option String

namespace Address

/-- An address as a text. -/
def text (a : Address) : String :=
  a.scheme ++ "://" ++ a.authority ++ (a.query.map ("/?" ++ ·)).getD ""

/-- Reads the parts of an address. -/
def ofText? (s : String) : Option Address := do
  match ← Text.cutAt ':' s.toList with
  | (scheme, '/' :: '/' :: rest) =>
    match Text.cutAt '/' rest with
    | none => some ⟨.ofList scheme, .ofList rest, none⟩
    | some (authority, '?' :: query) =>
      some ⟨.ofList scheme, .ofList authority, some (.ofList query)⟩
    | _ => none
  | _ => none

/-- The user and the password of an address, as they are written in it. -/
def credentials? (a : Address) : Option (String × String) := do
  let (info, _) ← Text.cutAt '@' a.authority.toList
  let (user, password) ← Text.cutAt ':' info
  return (.ofList user, .ofList password)

/-- A place by its host and its port, if it has one. -/
def place (cs : List Char) : String × Option String :=
  match Text.cutAt ':' cs with
  | some (host, port) => (.ofList host, some (.ofList port))
  | none => (.ofList cs, none)

/-- The places of an address: what stands between commas behind the credentials. -/
def places (a : Address) : List (String × Option String) :=
  let cs := a.authority.toList
  (Text.splitChars ',' (((Text.cutAt '@' cs).map (·.2)).getD cs)).map place

/-- An address that was written is read back. -/
theorem ofText?_text {a : Address} (hscheme : ':' ∉ a.scheme.toList)
    (hauthority : '/' ∉ a.authority.toList) : ofText? a.text = some a := by
  obtain ⟨scheme, authority, query⟩ := a
  have hchars (tail : String) : (scheme ++ "://" ++ authority ++ tail).toList
      = scheme.toList ++ ':' :: '/' :: '/' :: (authority.toList ++ tail.toList) := by simp
  cases query with
  | none =>
      rw [ofText?, text, hchars, cutAt_append hscheme]
      simp [cutAt_of_not_mem hauthority]
  | some query =>
      rw [ofText?, text, hchars, cutAt_append hscheme]
      simp [cutAt_append hauthority]

end Address

namespace Settings

variable {s : Settings}

/-! ## The address of settings -/

/-- The parts of which the address is made. -/
def address (s : Settings) : Address where
  scheme := if s.srv then "mongodb+srv" else "mongodb"
  authority :=
    (match s.credentials? with
      | some (user, password) =>
        Text.percentEncode user ++ ":" ++ Text.percentEncode password ++ "@"
      | none => "") ++ ",".intercalate s.hostTexts
  query :=
    if s.urlOptions.isEmpty then none
    else some ("&".intercalate (s.urlOptions.map fun (name, v) => name ++ "=" ++ v))

theorem text_address (s : Settings) : s.address.text = s.url := by
  rw [Address.text, address, url]
  cases s.srv
  all_goals
    cases s.urlOptions with
    | nil => rfl
    | cons o os => rfl

/-- A user and a password are set, and neither is empty. -/
structure HasCredentials (s : Settings) (user password : String) : Prop where
  userIs : s.user = some user
  passwordIs : s.password = some password
  user_ne : user ≠ ""
  password_ne : password ≠ ""

theorem filled_eq_some_iff {o : Option String} {t : String} :
    filled o = some t ↔ o = some t ∧ t ≠ "" := by
  rw [filled, Option.filter_eq_some_iff, Bool.not_eq_true', String.isEmpty_eq_false_iff]

theorem credentials?_eq_some_iff {user password : String} :
    s.credentials? = some (user, password) ↔ s.HasCredentials user password := by
  have hparts : s.credentials? = some (user, password)
      ↔ filled s.user = some user ∧ filled s.password = some password := by
    rw [credentials?]
    cases filled s.user with
    | none => simp
    | some u =>
        cases filled s.password with
        | none => simp
        | some p => simp
  rw [hparts, filled_eq_some_iff, filled_eq_some_iff]
  constructor
  · rintro ⟨⟨huser, hne⟩, hpassword, hne'⟩
    exact ⟨huser, hpassword, hne, hne'⟩
  · rintro ⟨huser, hpassword, hne, hne'⟩
    exact ⟨⟨huser, hne⟩, hpassword, hne'⟩

/-! ## Hosts and ports -/

/-- The hosts and the ports of settings, as texts. -/
def hostsAndPorts (s : Settings) : List String := s.hosts ++ s.ports.map Port.plain

/-- The port of the host at a place: the one at the same place, else the first one, else the
    standard one. -/
inductive Serves (s : Settings) (i : Nat) : String → Prop
  | own {p : Port} : s.ports[i]? = some p → Serves s i p.plain
  | first {p : Port} : s.ports[i]? = none → s.ports.head? = some p → Serves s i p.plain
  | standard : s.ports = [] → Serves s i "27017"

theorem serves_portAt (s : Settings) (i : Nat) : s.Serves i (s.portAt i) := by
  rw [portAt]
  cases hown : s.ports[i]? with
  | some p => exact .own hown
  | none =>
      cases hfirst : s.ports.head? with
      | some p => exact .first hown hfirst
      | none => exact .standard (List.head?_eq_none_iff.mp hfirst)

theorem Serves.not_mem {i : Nat} {port : String} {c : Char} (h : s.Serves i port)
    (hfree : ∀ t ∈ s.hostsAndPorts, c ∉ t.toList) (hstandard : c ∉ "27017".toList) :
    c ∉ port.toList := by
  have hports {p : Port} (hp : p ∈ s.ports) : c ∉ p.plain.toList :=
    hfree _ (List.mem_append_right _ (List.mem_map_of_mem hp))
  cases h with
  | own hp => exact hports (List.mem_of_getElem? hp)
  | first _ hp => exact hports (List.mem_of_head? hp)
  | standard => exact hstandard

theorem not_mem_hostNames {c : Char} {host : String} (h : host ∈ s.hostNames)
    (hfree : ∀ t ∈ s.hostsAndPorts, c ∉ t.toList) (hlocal : c ∉ "localhost".toList) :
    c ∉ host.toList := by
  rw [hostNames] at h
  split at h
  · obtain rfl := List.mem_singleton.mp h
    exact hlocal
  · exact hfree host (List.mem_append_left _ h)

/-- What stands in no host and no port stands in no place, colons apart. -/
theorem not_mem_hostTexts {c : Char} {t : String} (h : t ∈ s.hostTexts)
    (hfree : ∀ t ∈ s.hostsAndPorts, c ∉ t.toList) (hlocal : c ∉ "localhost".toList)
    (hstandard : c ∉ "27017".toList) (hcolon : c ≠ ':') : c ∉ t.toList := by
  rw [hostTexts] at h
  split at h
  case isTrue => exact not_mem_hostNames h hfree hlocal
  case isFalse =>
    obtain ⟨i, hi, rfl⟩ := List.mem_mapIdx.mp h
    have hhost := not_mem_hostNames (List.getElem_mem hi) hfree hlocal
    have hport := (s.serves_portAt i).not_mem hfree hstandard
    simp [hhost, hport, hcolon]

/-! ## The parts of the address -/

/-- A character with a meaning of its own stands nowhere in encoded text. -/
theorem not_mem_encoded {c : Char} (h : c ∈ [':', '@', '/', '?']) (t : String) :
    c ∉ (Text.percentEncode t).toList := by
  have hmarks : ∀ c ∈ [':', '@', '/', '?'],
      Text.isUnreserved c = false ∧ c ≠ '%' ∧ c ≠ '+' := by simp [Text.isUnreserved]
  obtain ⟨hreserved, hpercent, hplus⟩ := hmarks c h
  exact Text.not_mem_percentEncode hreserved hpercent hplus

theorem not_mem_intercalate {c : Char} {separator : String} {texts : List String}
    (hseparator : c ∉ separator.toList) (h : ∀ t ∈ texts, c ∉ t.toList) :
    c ∉ (separator.intercalate texts).toList := by
  induction texts with
  | nil => simp
  | cons t texts ih =>
      obtain ⟨ht, htexts⟩ := List.forall_mem_cons.mp h
      cases texts with
      | nil => simpa using ht
      | cons u texts =>
          have hrest := ih htexts
          rw [String.intercalate_cons_cons, String.toList_append, String.toList_append,
            List.mem_append, List.mem_append]
          exact not_or.mpr ⟨not_or.mpr ⟨ht, hseparator⟩, hrest⟩

/-- The address is read as the parts that it was made of. -/
theorem ofText?_url (h : ∀ t ∈ s.hostsAndPorts, '/' ∉ t.toList) :
    Address.ofText? s.url = some s.address := by
  rw [← text_address]
  have hplaces : '/' ∉ (",".intercalate s.hostTexts).toList :=
    not_mem_intercalate (by simp) fun t ht =>
      not_mem_hostTexts ht h (by simp) (by simp) (by decide)
  refine Address.ofText?_text ?_ ?_
  · rw [address]
    split <;> simp
  · rw [address]
    cases s.credentials? with
    | none => simpa using hplaces
    | some c =>
        obtain ⟨user, password⟩ := c
        simpa [not_mem_encoded] using hplaces

section Credentials

variable {user password : String}

theorem authority_address (h : s.HasCredentials user password) :
    s.address.authority.toList
      = ((Text.percentEncode user).toList ++ ':' :: (Text.percentEncode password).toList)
        ++ '@' :: (",".intercalate s.hostTexts).toList := by
  rw [address, credentials?_eq_some_iff.mpr h]
  simp

theorem cutAt_authority (h : s.HasCredentials user password) :
    Text.cutAt '@' s.address.authority.toList
      = some ((Text.percentEncode user).toList ++ ':' :: (Text.percentEncode password).toList,
          (",".intercalate s.hostTexts).toList) := by
  rw [authority_address h]
  refine cutAt_append ?_
  simp [not_mem_encoded]

/-- The credentials of the address are those that are set, encoded. -/
theorem credentials?_address (h : s.HasCredentials user password) :
    s.address.credentials? = some (Text.percentEncode user, Text.percentEncode password) := by
  have huser : ':' ∉ (Text.percentEncode user).toList := not_mem_encoded (by decide) user
  rw [Address.credentials?, cutAt_authority h]
  simp [cutAt_append huser]

/-- The places of the address are the hosts, each with its port. -/
theorem places_address (h : s.HasCredentials user password) (hsrv : s.srv = false)
    (hhosts : s.hosts ≠ [])
    (hfree : ∀ t ∈ s.hostsAndPorts, ',' ∉ t.toList ∧ ':' ∉ t.toList) :
    s.address.places = s.hosts.mapIdx fun i host => (host, some (s.portAt i)) := by
  have htexts : s.hostTexts = s.hosts.mapIdx fun i host => host ++ ":" ++ s.portAt i := by
    rw [hostTexts, hsrv, hostNames, if_neg (mt List.isEmpty_iff.mp hhosts)]
    rfl
  -- No place holds a comma, so they are taken apart where they were joined.
  have hsplit : Text.splitChars ',' (",".intercalate s.hostTexts).toList
      = s.hostTexts.map String.toList := by
    rw [String.toList_intercalate]
    refine splitChars_intercalate ?_ ?_
    · rw [htexts]
      simpa using hhosts
    · intro piece hpiece
      obtain ⟨t, ht, rfl⟩ := List.mem_map.mp hpiece
      exact not_mem_hostTexts ht (fun t ht => (hfree t ht).1) (by simp) (by simp) (by decide)
  rw [Address.places, cutAt_authority h]
  show (Text.splitChars ',' (",".intercalate s.hostTexts).toList).map Address.place = _
  rw [hsplit, htexts]
  refine List.ext_getElem (by simp) fun i hi hi' => ?_
  have hlt : i < s.hosts.length := by simpa using hi'
  have hhost : ':' ∉ s.hosts[i].toList :=
    (hfree _ (List.mem_append_left _ (List.getElem_mem hlt))).2
  have hcut : (s.hosts[i] ++ ":" ++ s.portAt i).toList
      = s.hosts[i].toList ++ ':' :: (s.portAt i).toList := by simp
  simp only [List.getElem_map, List.getElem_mapIdx]
  rw [hcut, Address.place, cutAt_append hhost]
  simp

end Credentials

/-- **The address of some settings names what to reach and as whom.** Its credentials hold no
    character with a meaning of its own, and are read as the user and the password that are
    set. Its places are the hosts in their order, each with its port. -/
theorem url_names_places {user password : String} (hsrv : s.srv = false)
    (hcredentials : s.HasCredentials user password) (hhosts : s.hosts ≠ [])
    (hfree : ∀ t ∈ s.hostsAndPorts, ∀ c ∈ [',', '@', '/', '?', ':'], c ∉ t.toList) :
    ∃ a, Address.ofText? s.url = some a ∧ a.scheme = "mongodb"
      ∧ (∃ u p, a.credentials? = some (u, p)
          ∧ (∀ c ∈ [':', '@', '/', '?'], c ∉ u.toList ∧ c ∉ p.toList)
          ∧ Text.percentDecode? true u = some user ∧ Text.percentDecode? true p = some password)
      ∧ a.places.length = s.hosts.length
      ∧ ∀ i host, s.hosts[i]? = some host →
          ∃ port, s.Serves i port ∧ a.places[i]? = some (host, some port) := by
  have hread := ofText?_url fun t ht => hfree t ht '/' (by decide)
  have hplaces := places_address hcredentials hsrv hhosts fun t ht =>
    ⟨hfree t ht ',' (by decide), hfree t ht ':' (by decide)⟩
  refine ⟨_, hread, ?_, ⟨_, _, credentials?_address hcredentials, ?_, ?_, ?_⟩, ?_, ?_⟩
  · rw [address, hsrv]
    rfl
  · exact fun c hc => ⟨not_mem_encoded hc user, not_mem_encoded hc password⟩
  · exact Text.percentDecode?_percentEncode user
  · exact Text.percentDecode?_percentEncode password
  · rw [hplaces, List.length_mapIdx]
  · intro i host hhost
    refine ⟨s.portAt i, s.serves_portAt i, ?_⟩
    rw [hplaces, List.getElem?_mapIdx, hhost]
    rfl

/-- Three hosts with two ports, and credentials full of marks. -/
def clustered : Settings :=
  { database := "app", hosts := ["db1", "db2", "db3"], ports := [.text "27017", .text "27018"],
    user := some "shop:admin", password := some "p@ss/wörd + 1%", authMechanism := none,
    authSource := some "admin", ssl := true, replicaSet := some "rs0", srv := false,
    pool := .standard }

theorem hasCredentials_clustered : clustered.HasCredentials "shop:admin" "p@ss/wörd + 1%" :=
  ⟨rfl, rfl, by decide, by decide⟩

theorem url_names_places_clustered :
    (∀ t ∈ clustered.hostsAndPorts, ∀ c ∈ [',', '@', '/', '?', ':'], c ∉ t.toList)
      ∧ ∃ a, Address.ofText? clustered.url = some a
        ∧ (∃ u p, a.credentials? = some (u, p) ∧ Text.percentDecode? true u = some "shop:admin"
            ∧ Text.percentDecode? true p = some "p@ss/wörd + 1%")
        ∧ a.places.length = 3 ∧ a.places[1]? = some ("db2", some "27018")
        ∧ a.places[2]? = some ("db3", some "27017") := by
  have hfree : ∀ t ∈ clustered.hostsAndPorts, ∀ c ∈ [',', '@', '/', '?', ':'], c ∉ t.toList := by
    simp [hostsAndPorts, clustered, Port.plain]
  obtain ⟨a, hread, -, ⟨u, p, hwritten, -, huser, hpassword⟩, hlength, hplaces⟩ :=
    url_names_places rfl hasCredentials_clustered (by decide) hfree
  obtain ⟨second, hsecond, hplace2⟩ := hplaces 1 "db2" rfl
  obtain ⟨third, hthird, hplace3⟩ := hplaces 2 "db3" rfl
  refine ⟨hfree, a, hread, ⟨u, p, hwritten, huser, hpassword⟩, hlength, ?_, ?_⟩
  · rw [hplace2]
    cases hsecond with
    | own hp => cases hp; rfl
    | first hnone _ => cases hnone
    | standard hnone => cases hnone
  · rw [hplace3]
    cases hthird with
    | own hp => cases hp
    | first _ hp => cases hp; rfl
    | standard hnone => cases hnone

end Settings

end DocumentAccess
