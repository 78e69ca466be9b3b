import PagedQuery.Proofs.Window
import PagedQuery.Settings.Basic

/-!
# What a connection string determines

A connection string joins user, password, host, port and database with marks that may
also stand inside the parts. The parts can be read back from it exactly when no part
holds a mark at a place where the joint could be: then no other settings that pass
their check have the same text. A text that holds such a mark is also the text of
settings for another user, another password, another host or another database.
-/
namespace PagedQuery

/-- Where a text goes on with a character, another way to read it so begins earlier,
later or at the same place. -/
theorem Text.append_cons_cases {s t s' t' : Text} {c c' : Char}
    (h : s ++ c :: t = s' ++ c' :: t') :
    (s = s' ∧ c = c' ∧ t = t') ∨ (∃ m, s' = s ++ c :: m ∧ t = m ++ c' :: t') ∨
      ∃ m, s = s' ++ c' :: m ∧ t' = m ++ c :: t := by
  cases List.append_eq_append_iff.mp h with
  | inl hlater =>
    obtain ⟨m, hs, ht⟩ := hlater
    cases m with
    | nil =>
      have hcons := List.cons_eq_cons.mp ht
      exact .inl ⟨by rw [hs, List.append_nil], hcons.1, hcons.2⟩
    | cons a m =>
      have hcons := List.cons_eq_cons.mp ht
      exact .inr (.inl ⟨m, by rw [hs, hcons.1], hcons.2⟩)
  | inr hearlier =>
    obtain ⟨m, hs, ht⟩ := hearlier
    cases m with
    | nil =>
      have hcons := List.cons_eq_cons.mp ht
      exact .inl ⟨by rw [hs, List.append_nil], hcons.1.symm, hcons.2.symm⟩
    | cons a m =>
      have hcons := List.cons_eq_cons.mp ht
      exact .inr (.inr ⟨m, by rw [hs, hcons.1], hcons.2⟩)

/-- Who connects to which database of which server. -/
structure Address where
  username : Text
  password : Text
  host : Text
  port : UInt16
  database : Text
  deriving DecidableEq

def DatabaseSettings.address (d : DatabaseSettings) : Address :=
  { username := d.username
    password := d.password
    host := d.host
    port := d.port
    database := d.database }

namespace Address

/-- The port as it stands between the host and the database. -/
def portPart (port : UInt16) : Text := ':' :: (Text.ofNat port.toNat ++ ['/'])

/-- User and password as they stand in front of the host. -/
def credentials (username password : Text) : Text := username ++ ':' :: (password ++ ['@'])

def text (a : Address) : Text :=
  credentials a.username a.password ++ a.host ++ portPart a.port ++ a.database

/-- The parts that may not be empty or zero are not. -/
structure Complete (a : Address) : Prop where
  username_ne : a.username ≠ []
  host_ne : a.host ≠ []
  port_ne : a.port ≠ 0
  database_ne : a.database ≠ []

/-- No part holds a mark where it could be the one between two parts. A user name may
begin with a colon and a host may end in an at sign, since neither may be empty. -/
structure Delimited (a : Address) : Prop where
  username_colon : ':' ∉ a.username.tail
  password_colon : ':' ∉ a.password
  password_at : '@' ∉ a.password
  host_at : '@' ∉ a.host.dropLast
  host_port : ∀ front port rest, front ≠ [] → port ≠ 0 → a.host ≠ front ++ portPart port ++ rest
  database_port : ∀ front port rest, port ≠ 0 → rest ≠ [] →
    a.database ≠ front ++ portPart port ++ rest

/-- No other complete parts are joined to the same text. -/
def Determined (a : Address) : Prop := ∀ b : Address, b.Complete → b.text = a.text → b = a

theorem mem_ofNat {n : ℕ} {c : Char} (h : c ∈ Text.ofNat n) : c.isDigit = true :=
  Nat.isDigit_of_mem_toDigits (by decide) (by decide) h

/-- Behind a port the next colon belongs to the database. -/
theorem colon_behind_port {n : ℕ} {database m rest : Text}
    (h : Text.ofNat n ++ '/' :: database = m ++ ':' :: rest) :
    ∃ front, m = Text.ofNat n ++ '/' :: front ∧ database = front ++ ':' :: rest := by
  cases Text.append_cons_cases h with
  | inl hsame => exact absurd hsame.2.1 (by decide)
  | inr hcases =>
    cases hcases with
    | inl hlater => exact hlater
    | inr hearlier =>
      obtain ⟨front, hdigits, -⟩ := hearlier
      have hcolon : ':' ∈ Text.ofNat n := by rw [hdigits]; simp
      exact absurd (mem_ofNat hcolon) (by decide)

/-- Two ports in one text are the same, or one stands in what is in front of the other. -/
theorem port_cases {left left' database database' : Text} {port port' : UInt16}
    (h : left ++ portPart port ++ database = left' ++ portPart port' ++ database') :
    (left = left' ∧ port = port' ∧ database = database') ∨
      (∃ front, database = front ++ portPart port' ++ database') ∨
      ∃ rest, left = left' ++ portPart port' ++ rest := by
  simp only [portPart, List.append_assoc, List.cons_append, List.nil_append] at h ⊢
  cases Text.append_cons_cases h with
  | inl hsame =>
    have hend : ∀ t : Text, ('/' :: t).takeWhile Char.isDigit = [] := fun t => rfl
    have hnumbers := Text.digits_append_inj hsame.2.2 (Text.spells_ofNat _).2.1
      (Text.spells_ofNat _).2.1 (hend _) (hend _)
    have hport : port.toNat = port'.toNat :=
      (Text.spells_ofNat _).inj (hnumbers.1 ▸ Text.spells_ofNat _)
    exact .inl ⟨hsame.1, UInt16.toNat_inj.mp hport, (List.cons_eq_cons.mp hnumbers.2).2⟩
  | inr hcases =>
    cases hcases with
    | inl hlater =>
      obtain ⟨m, -, hm⟩ := hlater
      obtain ⟨front, -, hdatabase⟩ := colon_behind_port hm
      exact .inr (.inl ⟨front, hdatabase⟩)
    | inr hearlier =>
      obtain ⟨m, hleft, hm⟩ := hearlier
      obtain ⟨front, hfront, -⟩ := colon_behind_port hm
      exact .inr (.inr ⟨front, by rw [hleft, hfront]⟩)

theorem at_mem_dropLast {front host : Text} (h : host ≠ []) :
    '@' ∈ (front ++ '@' :: host).dropLast := by
  rw [List.dropLast_append_of_ne_nil (List.cons_ne_nil _ _), List.dropLast_cons_of_ne_nil h]
  simp

/-- User and password of a delimited address are read off the text in front of the port. -/
theorem Delimited.credentials_inj {a : Address} (ha : a.Delimited) {username password host : Text}
    (husername : username ≠ []) (hhost : host ≠ [])
    (h : credentials a.username a.password ++ a.host = credentials username password ++ host) :
    a.username = username ∧ a.password = password ∧ a.host = host := by
  simp only [credentials, List.append_assoc, List.cons_append, List.nil_append] at h
  cases Text.append_cons_cases h with
  | inl hsame =>
    cases Text.append_cons_cases hsame.2.2 with
    | inl hpassword => exact ⟨hsame.1, hpassword.1, hpassword.2.2⟩
    | inr hcases =>
      cases hcases with
      | inl hlater =>
        obtain ⟨m, -, hm⟩ := hlater
        exact absurd (hm ▸ at_mem_dropLast hhost) ha.host_at
      | inr hearlier =>
        obtain ⟨m, hm, -⟩ := hearlier
        exact absurd (by rw [hm]; simp) ha.password_at
  | inr hcases =>
    cases hcases with
    | inl hlater =>
      obtain ⟨m, -, hm⟩ := hlater
      cases Text.append_cons_cases hm with
      | inl hsame => exact absurd hsame.2.1 (by decide)
      | inr hcases =>
        cases hcases with
        | inl hlater =>
          obtain ⟨m', -, hm'⟩ := hlater
          rw [← List.cons_append, ← List.append_assoc] at hm'
          exact absurd (hm' ▸ at_mem_dropLast hhost) ha.host_at
        | inr hearlier =>
          obtain ⟨m', hm', -⟩ := hearlier
          exact absurd (by rw [hm']; simp) ha.password_colon
    | inr hearlier =>
      obtain ⟨m, hm, -⟩ := hearlier
      apply absurd _ ha.username_colon
      rw [hm, List.tail_append_of_ne_nil husername]
      simp

theorem Delimited.determined {a : Address} (ha : a.Delimited) : a.Determined := by
  intro b hb h
  cases port_cases h.symm with
  | inl hsame =>
    have hparts := ha.credentials_inj hb.username_ne hb.host_ne hsame.1
    cases a
    cases b
    simp_all
  | inr hcases =>
    cases hcases with
    | inl hdatabase =>
      obtain ⟨front, hfront⟩ := hdatabase
      exact absurd hfront (ha.database_port _ _ _ hb.port_ne hb.database_ne)
    | inr hleft =>
      obtain ⟨rest, hrest⟩ := hleft
      rw [List.append_assoc, List.append_assoc] at hrest
      have hne : b.host ++ (portPart b.port ++ rest) ≠ [] := by simp [hb.host_ne]
      have hparts := ha.credentials_inj hb.username_ne hne hrest
      rw [← List.append_assoc] at hparts
      exact absurd hparts.2.2 (ha.host_port _ _ _ hb.host_ne hb.port_ne)

/-- A mark at a place where the joint could be makes two readings, of which one is another
address. -/
theorem Determined.delimited {a : Address} (ha : a.Complete) (h : a.Determined) :
    a.Delimited where
  username_colon := by
    intro hmem
    obtain ⟨s, t, ht⟩ := List.append_of_mem hmem
    obtain ⟨c, tail, hname⟩ := List.exists_cons_of_ne_nil ha.username_ne
    have htail : tail = s ++ ':' :: t := by rw [← ht, hname, List.tail_cons]
    have hother := h { a with username := c :: s, password := t ++ ':' :: a.password }
      { ha with username_ne := List.cons_ne_nil _ _ } (by simp [text, credentials, hname, htail])
    have hsame : c :: s = a.username := congrArg username hother
    simp [hname, htail] at hsame
  password_colon := by
    intro hmem
    obtain ⟨s, t, ht⟩ := List.append_of_mem hmem
    have hother := h { a with username := a.username ++ ':' :: s, password := t }
      { ha with username_ne := by simp [ha.username_ne] } (by simp [text, credentials, ht])
    have hsame : a.username ++ ':' :: s = a.username := congrArg username hother
    simp at hsame
  password_at := by
    intro hmem
    obtain ⟨s, t, ht⟩ := List.append_of_mem hmem
    have hother := h { a with password := s, host := t ++ '@' :: a.host }
      { ha with host_ne := by simp } (by simp [text, credentials, ht])
    have hsame : t ++ '@' :: a.host = a.host := congrArg host hother
    rw [List.append_cons] at hsame
    have hnil := List.self_eq_append_left.mp hsame.symm
    simp at hnil
  host_at := by
    intro hmem
    obtain ⟨s, t, ht⟩ := List.append_of_mem hmem
    have hhost : a.host = s ++ '@' :: (t ++ [a.host.getLast ha.host_ne]) := by
      rw [← List.cons_append, ← List.append_assoc, ← ht, List.dropLast_append_getLast]
    have hother := h
      { a with password := a.password ++ '@' :: s, host := t ++ [a.host.getLast ha.host_ne] }
      { ha with host_ne := by simp } (by simp [text, credentials, ← hhost])
    have hsame : a.password ++ '@' :: s = a.password := congrArg password hother
    simp at hsame
  host_port := by
    intro front port rest hfront hport ht
    have hother := h
      { a with host := front, port := port, database := rest ++ portPart a.port ++ a.database }
      { ha with host_ne := hfront, port_ne := hport, database_ne := by simp [portPart] }
      (by simp [text, ht])
    have hsame : front = a.host := congrArg host hother
    rw [ht] at hsame
    simp [portPart] at hsame
  database_port := by
    intro front port rest hport hrest ht
    have hother := h
      { a with host := a.host ++ portPart a.port ++ front, port := port, database := rest }
      { ha with host_ne := by simp [ha.host_ne], port_ne := hport, database_ne := hrest }
      (by simp [text, ht])
    have hsame : rest = a.database := congrArg database hother
    have hnil := List.self_eq_append_left.mp (hsame.trans ht)
    simp [portPart] at hnil

theorem ne_append_portPart {t : Text} (h : ':' ∉ t ∨ '/' ∉ t) (front rest : Text)
    (port : UInt16) : t ≠ front ++ portPart port ++ rest := by
  intro ht
  cases h with
  | inl hcolon => exact absurd (by rw [ht]; simp [portPart]) hcolon
  | inr hslash => exact absurd (by rw [ht]; simp [portPart]) hslash

end Address

namespace DatabaseSettings

theorem connectionString_eq (d : DatabaseSettings) :
    d.connectionString = "postgresql://".toList ++ d.address.text := by
  unfold connectionString address Address.text Address.credentials Address.portPart
  generalize "postgresql://".toList = scheme
  simp only [List.append_assoc, List.cons_append, List.nil_append]

def withAddress (d : DatabaseSettings) (a : Address) : DatabaseSettings :=
  { d with
    username := a.username
    password := a.password
    host := a.host
    port := a.port
    database := a.database }

@[simp] theorem address_withAddress (d : DatabaseSettings) (a : Address) :
    (d.withAddress a).address = a := rfl

theorem complete_of_fault? {d : DatabaseSettings} (h : d.fault? = none) : d.address.Complete := by
  have hparts := d.fault?_eq_none_iff.mp h
  exact
    { username_ne := hparts.2.2.2.1
      host_ne := hparts.1
      port_ne := hparts.2.1
      database_ne := hparts.2.2.1 }

theorem fault?_withAddress {d : DatabaseSettings} (h : d.fault? = none) {a : Address}
    (ha : a.Complete) : (d.withAddress a).fault? = none := by
  rw [fault?_eq_none_iff] at h ⊢
  exact ⟨ha.host_ne, ha.port_ne, ha.database_ne, ha.username_ne, h.2.2.2.2⟩

/-- Settings that pass their check share their connection string with no settings of
another address exactly when their address is delimited. -/
theorem connectionString_determines_iff (d : DatabaseSettings) (h : d.fault? = none) :
    (∀ e : DatabaseSettings, e.fault? = none → e.connectionString = d.connectionString →
        e.address = d.address) ↔
      d.address.Delimited := by
  constructor
  · intro hunique
    apply Address.Determined.delimited (complete_of_fault? h)
    intro a ha htext
    apply hunique (d.withAddress a) (fault?_withAddress h ha)
    rw [connectionString_eq, connectionString_eq, address_withAddress, htext]
  · intro hdelimited e he htext
    rw [connectionString_eq, connectionString_eq] at htext
    exact hdelimited.determined e.address (complete_of_fault? he) (List.append_cancel_left htext)

def shop (username password host : String) : DatabaseSettings :=
  { host := host.toList
    port := 5432
    database := "shop/eu".toList
    username := username.toList
    password := password.toList
    minConnections := 1
    maxConnections := 2
    connectionTimeoutSeconds := 3
    idleTimeoutSeconds := 4
    maxLifetimeSeconds := 5 }

/-- Marks at other places do no harm: a colon in front of the user name, one in the number
of a host, a slash in the name of a database. -/
theorem connectionString_determines_iff_marked :
    (shop ":app@corp" "p/ss#1" "[::1]").fault? = none ∧
      ∀ e : DatabaseSettings, e.fault? = none →
        e.connectionString = "postgresql://:app@corp:p/ss#1@[::1]:5432/shop/eu".toList →
          e.address = (shop ":app@corp" "p/ss#1" "[::1]").address := by
  have hfault : (shop ":app@corp" "p/ss#1" "[::1]").fault? = none := by decide
  refine ⟨hfault, (connectionString_determines_iff _ hfault).mpr ?_⟩
  exact
    { username_colon := by decide
      password_colon := by decide
      password_at := by decide
      host_at := by decide
      host_port := fun front port rest _ _ =>
        Address.ne_append_portPart (by decide) front rest port
      database_port := fun front port rest _ _ =>
        Address.ne_append_portPart (by decide) front rest port }

/-- The settings of the user `app:ro` have the text of settings of the user `app`. -/
theorem not_determined_colon :
    (shop "app:ro" "secret" "db").fault? = none ∧ (shop "app" "ro:secret" "db").fault? = none ∧
      (shop "app:ro" "secret" "db").connectionString =
        (shop "app" "ro:secret" "db").connectionString ∧
      (shop "app:ro" "secret" "db").address ≠ (shop "app" "ro:secret" "db").address := by
  decide +kernel

end DatabaseSettings

end PagedQuery
