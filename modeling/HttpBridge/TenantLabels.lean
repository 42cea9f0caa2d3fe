/-
# The sign-in label and the labels of tenants

`LOGIN_SUBDOMAIN` names the label of the sign-in origin (`setLoginLabel`), and
no tenant may go by it. The label in force is always in lower case and no
number (`LabelInForce`), but `default` passes the check, and `default` is what
a request without a tenant resolves to: there, and nowhere else, a request
resolves to a reserved label (`resolveTenant_unreserved_iff`).

A host names the tenant `t` when it is `t` or `t-suffix` under some domain
(`HostOf`). What is read off such a host is `t` in the letters of the host
(`extractTenantFromHostname_of_host`), so two hosts that differ in case name
two tenants (`extractTenantFromHostname_eq_iff`).
-/
import HttpBridge.Net.Ascii
import HttpBridge.Strings

namespace HttpBridge

open Net

/-! ### Letter case -/

@[simp] theorem toList_lowered (s : String) : (lowered s).toList = s.toList.map Char.toLower := by
  simp [lowered]

theorem lowered_eq_iff {s t : String} :
    lowered s = lowered t ↔ s.toList.map Char.toLower = t.toList.map Char.toLower := by
  rw [← String.toList_inj, toList_lowered, toList_lowered]

@[simp] theorem lowered_lowered (s : String) : lowered (lowered s) = lowered s := by
  rw [lowered_eq_iff, toList_lowered, map_toLower_map_toLower]

theorem isReservedTenantLabel_congr (loginLabel : String) {s t : String}
    (h : lowered s = lowered t) :
    isReservedTenantLabel loginLabel s = isReservedTenantLabel loginLabel t := by
  rw [isReservedTenantLabel, isReservedTenantLabel, h]

/-! ### The sign-in label -/

/-- `utils.cpp`, `setLoginLabel`: the label then in force, or what is wrong
with this one. -/
def setLoginLabel (label : String) : Except String String :=
  if label == "" then .ok "login"
  else
    let l := lowered label
    if 63 < l.toList.length then .error "longer than the 63-character DNS label limit"
    else if '-' ∈ l.toList then
      .error ("contains '-', which is parsed as the <tenant>-<interface> " ++
        "separator and would resolve to a tenant instead of being reserved")
    else if l.toList.any (· ∉ "abcdefghijklmnopqrstuvwxyz0123456789".toList) then
      .error ("is not a bare DNS label (letters and digits only) — note that a " ++
        ".env value runs to end of line, so an inline '# comment' becomes part of it")
    else if allDigits l then .error "is all digits, which collides with the IPv4-literal check"
    else .ok l

/-- `g_login_label` after a call. -/
def labelAfter (loginLabel label : String) : String :=
  (setLoginLabel label).toOption.getD loginLabel

/-- `loginLabel` after calls with these labels. -/
def loginLabel (labels : List String) : String := labels.foldl labelAfter "login"

/-- The last of them that `setLoginLabel` does not reject. -/
def lastAccepted (labels : List String) : Option String :=
  labels.reverse.find? fun label => (setLoginLabel label).toOption.isSome

theorem setLoginLabel_eq_ok {label l : String} (h : setLoginLabel label = .ok l) :
    l = if label = "" then "login" else lowered label := by
  unfold setLoginLabel at h
  dsimp only at h
  split_ifs at h with hempty
  · rw [if_pos (by simpa using hempty)]
    exact (Except.ok.inj h).symm
  · rw [if_neg (by simpa using hempty)]
    exact (Except.ok.inj h).symm

theorem labelAfter_eq (g label : String) : labelAfter g label =
    if (setLoginLabel label).toOption.isSome then if label = "" then "login" else lowered label
    else g := by
  rw [labelAfter]
  cases h : setLoginLabel label with
  | error e => rfl
  | ok l => exact setLoginLabel_eq_ok h

/-- The label in force is what the last accepted call made of its label. -/
theorem loginLabel_eq (labels : List String) : loginLabel labels =
    ((lastAccepted labels).map fun label => if label = "" then "login" else lowered label).getD
      "login" := by
  induction labels using List.reverseRecOn with
  | nil => rfl
  | append_singleton labels label ih =>
    rw [loginLabel, List.foldl_append, List.foldl_cons, List.foldl_nil, labelAfter_eq,
      lastAccepted, List.reverse_append, List.reverse_cons, List.reverse_nil, List.nil_append,
      List.cons_append, List.nil_append, List.find?_cons]
    cases (setLoginLabel label).toOption.isSome with
    | true => rfl
    | false => exact ih

/-- A label is kept as the comparison with it reads labels. -/
theorem lowered_loginLabel (labels : List String) :
    lowered (loginLabel labels) = loginLabel labels := by
  rw [loginLabel_eq]
  cases lastAccepted labels with
  | none => decide
  | some label =>
    by_cases h : label = ""
    · simp only [Option.map_some, Option.getD_some, if_pos h]
      decide
    · simp only [Option.map_some, Option.getD_some, if_neg h, lowered_lowered]

theorem isReservedTenantLabel_loginLabel (labels : List String) :
    isReservedTenantLabel (loginLabel labels) (loginLabel labels) = true := by
  rw [isReservedTenantLabel, lowered_loginLabel, beq_self_eq_true, Bool.or_true]

theorem loginLabel_eq_default_iff (labels : List String) : loginLabel labels = "default" ↔
    ∃ label, lastAccepted labels = some label ∧ lowered label = "default" := by
  rw [loginLabel_eq]
  cases lastAccepted labels with
  | none => simp
  | some label =>
    by_cases h : label = ""
    · subst h
      simp only [Option.map_some, Option.getD_some, if_true, Option.some.injEq, exists_eq_left']
      decide
    · simp [h]

/-! ### Resolution -/

/-- The part of a host that may name a tenant: the first label, up to a hyphen. -/
def hostLabel (host : String) : String := upTo '-' (upTo '.' (upTo ':' host))

/-- `host` has a first label, and it is a tenant's. -/
def NamesTenant (loginLabel host : String) : Prop :=
  '.' ∈ (upTo ':' host).toList ∧ hostLabel host ≠ "" ∧
    isReservedTenantLabel loginLabel (hostLabel host) = false ∧ allDigits (hostLabel host) = false

theorem extractTenantFromHostname_of_namesTenant {loginLabel host : String}
    (h : NamesTenant loginLabel host) : extractTenantFromHostname loginLabel host = hostLabel host := by
  obtain ⟨hdot, hne, hres, hdigits⟩ := h
  rw [hostLabel] at hne hres hdigits
  simp [extractTenantFromHostname, hostLabel, hdot, hne, hres, hdigits]

theorem extractTenantFromHostname_of_not_namesTenant {loginLabel host : String}
    (h : ¬ NamesTenant loginLabel host) : extractTenantFromHostname loginLabel host = "" := by
  unfold extractTenantFromHostname
  dsimp only
  by_cases hdot : '.' ∈ (upTo ':' host).toList
  · rw [if_neg (not_not.mpr hdot)]
    by_cases hres : hostLabel host = "" ∨ isReservedTenantLabel loginLabel (hostLabel host) = true
    · rw [hostLabel, ← beq_iff_eq, ← Bool.or_eq_true] at hres
      rw [if_pos hres]
    · rw [not_or, Bool.not_eq_true] at hres
      have hdigits : allDigits (hostLabel host) = true := by
        by_contra hdigits
        exact h ⟨hdot, hres.1, hres.2, Bool.eq_false_iff.mpr hdigits⟩
      rw [hostLabel] at hdigits
      rw [if_pos hdigits, ite_self]
  · rw [if_pos hdot]

theorem extractTenantFromHostname_eq_empty_iff {loginLabel host : String} :
    extractTenantFromHostname loginLabel host = "" ↔ ¬ NamesTenant loginLabel host := by
  constructor
  · intro h hnames
    rw [extractTenantFromHostname_of_namesTenant hnames] at h
    exact hnames.2.1 h
  · exact extractTenantFromHostname_of_not_namesTenant

/-- What a request resolves to: its header if that is honoured, else what its
host names, else `default`. -/
theorem resolveTenant_eq (loginLabel xTenantHeader host : String) :
    resolveTenant loginLabel xTenantHeader host = xTenantHeader ∧ xTenantHeader ≠ "" ∧
        isReservedTenantLabel loginLabel xTenantHeader = false ∨
      (xTenantHeader = "" ∨ isReservedTenantLabel loginLabel xTenantHeader = true) ∧
        (resolveTenant loginLabel xTenantHeader host = hostLabel host ∧ NamesTenant loginLabel host ∨
          resolveTenant loginLabel xTenantHeader host = "default" ∧ ¬ NamesTenant loginLabel host) := by
  unfold resolveTenant
  by_cases hx : xTenantHeader ≠ "" ∧ isReservedTenantLabel loginLabel xTenantHeader = false
  · left
    refine ⟨?_, hx⟩
    rw [if_pos (by simpa using hx)]
  · right
    rw [if_neg (by simpa using hx)]
    refine ⟨by simpa [or_iff_not_imp_left] using hx, ?_⟩
    by_cases hhost : NamesTenant loginLabel host
    · left
      rw [extractTenantFromHostname_of_namesTenant hhost]
      refine ⟨?_, hhost⟩
      simp [hhost.2.1]
    · right
      rw [extractTenantFromHostname_of_not_namesTenant hhost]
      exact ⟨rfl, hhost⟩

/-- A request resolves to a label that is not reserved, and in particular not
to the sign-in label, unless `default` is the sign-in label and nothing in the
request names a tenant. -/
theorem resolveTenant_unreserved_iff (labels : List String) (xTenantHeader host : String) :
    (isReservedTenantLabel (loginLabel labels)
          (resolveTenant (loginLabel labels) xTenantHeader host) = false ∧
        resolveTenant (loginLabel labels) xTenantHeader host ≠ loginLabel labels) ↔
      (∀ label, lastAccepted labels = some label → lowered label ≠ "default") ∨
        (xTenantHeader ≠ "" ∧ isReservedTenantLabel (loginLabel labels) xTenantHeader = false) ∨
        NamesTenant (loginLabel labels) host := by
  have hne : ∀ tenant, isReservedTenantLabel (loginLabel labels) tenant = false →
      tenant ≠ loginLabel labels := by
    rintro tenant htenant rfl
    rw [isReservedTenantLabel_loginLabel] at htenant
    cases htenant
  have hlast : (∀ label, lastAccepted labels = some label → lowered label ≠ "default") ↔
      loginLabel labels ≠ "default" := by
    rw [Ne, loginLabel_eq_default_iff, not_exists]
    simp only [not_and, Ne]
  have hdefault : isReservedTenantLabel (loginLabel labels) "default" = false ↔
      loginLabel labels ≠ "default" := by
    have hlow : lowered "default" = "default" := by decide
    have hwww : ("default" == "www") = false := by decide
    rw [isReservedTenantLabel, hlow, hwww, Bool.false_or, beq_eq_false_iff_ne, ne_comm]
  rw [and_iff_left_of_imp (hne _), hlast]
  rcases resolveTenant_eq (loginLabel labels) xTenantHeader host with
    ⟨htenant, hx⟩ | ⟨hx, ⟨htenant, hhost⟩ | ⟨htenant, hhost⟩⟩
  · rw [htenant]
    exact iff_of_true hx.2 (.inr (.inl hx))
  · rw [htenant]
    exact iff_of_true hhost.2.2.1 (.inr (.inr hhost))
  · rw [htenant, hdefault]
    have hheader : ¬ (xTenantHeader ≠ "" ∧
        isReservedTenantLabel (loginLabel labels) xTenantHeader = false) := by
      rintro ⟨hne, hres⟩
      rcases hx with hx | hx
      · exact hne hx
      · rw [hx] at hres
        cases hres
    rw [or_iff_left (not_or.mpr ⟨hheader, hhost⟩)]

theorem resolves_to_sign_in_label :
    ¬ ∀ (labels : List String) (xTenantHeader host : String),
      isReservedTenantLabel (loginLabel labels)
          (resolveTenant (loginLabel labels) xTenantHeader host) = false ∧
        resolveTenant (loginLabel labels) xTenantHeader host ≠ loginLabel labels := by
  intro h
  have hlocal := (h ["default"] "" "localhost").2
  exact hlocal (by decide +kernel)

/-! ### Hosts of one label -/

structure IsLabel (t : String) : Prop where
  ne_empty : t ≠ ""
  dot : '.' ∉ t.toList
  colon : ':' ∉ t.toList
  hyphen : '-' ∉ t.toList

/-- `t` or `t-suffix` under a domain, with or without a port. -/
def hostName (t : String) (suffix : Option String) (domain : String) (port : Option String) :
    String :=
  t ++ suffix.elim "" ("-" ++ ·) ++ "." ++ domain ++ port.elim "" (":" ++ ·)

/-- `host` is such a name in some letter case. -/
def HostOf (t host : String) : Prop :=
  ∃ suffix domain port, (∀ s ∈ suffix, ':' ∉ s.toList) ∧
    lowered host = lowered (hostName t suffix domain port)

/-- `t` in the letters of `host`. -/
def spelling (t host : String) : String := String.ofList (host.toList.take t.toList.length)

section Hosts
variable {loginLabel t host : String}

theorem allDigits_lowered (s : String) : allDigits (lowered s) = allDigits s := by
  have hdigit : ∀ c : Char,
      decide ('0' ≤ c.toLower ∧ c.toLower ≤ '9') = decide ('0' ≤ c ∧ c ≤ '9') :=
    toLower_induction (p := fun c d => decide ('0' ≤ d ∧ d ≤ '9') = decide ('0' ≤ c ∧ c ≤ '9'))
      (fun _ => rfl) (by decide)
  rw [allDigits, allDigits, toList_lowered, List.all_map]
  simp only [Function.comp_def, hdigit]

theorem toList_upTo {c : Char} {s : String} {a r : List Char} (h : s.toList = a ++ r)
    (ha : c ∉ a) : (upTo c s).toList = a ++ r.takeWhile (· ≠ c) := by
  have hne : ∀ d ∈ a, decide (d ≠ c) = true := by
    intro d hd
    rw [decide_eq_true_iff]
    rintro rfl
    exact ha hd
  rw [upTo, String.toList_ofList, h, List.takeWhile_append_of_pos hne]

/-- Such a host begins with the label, and goes on with a dot or, up to the
first dot, with a hyphen. -/
theorem HostOf.exists (h : HostOf t host) : ∃ a s d, host.toList = a ++ (s ++ '.' :: d) ∧
    a.map Char.toLower = t.toList.map Char.toLower ∧ (s = [] ∨ s.head? = some '-') ∧ ':' ∉ s := by
  obtain ⟨suffix, domain, port, hcolon, hlow⟩ := h
  obtain ⟨sfx, hsfx, hhead, hno⟩ : ∃ sfx, (suffix.elim "" ("-" ++ ·)).toList = sfx ∧
      (sfx = [] ∨ sfx.head? = some '-') ∧ ':' ∉ sfx := by
    cases suffix with
    | none => exact ⟨[], rfl, .inl rfl, List.not_mem_nil⟩
    | some s => exact ⟨'-' :: s.toList, by simp, .inr rfl, by simpa using hcolon s rfl⟩
  have hname : (hostName t suffix domain port).toList =
      t.toList ++ (sfx ++ '.' :: (domain ++ port.elim "" (":" ++ ·)).toList) := by
    simp [hostName, hsfx]
  rw [lowered_eq_iff, hname, List.map_append, List.map_append, List.map_cons,
    List.map_eq_append_iff] at hlow
  obtain ⟨a, rest, hhost, ha, hrest⟩ := hlow
  rw [List.map_eq_append_iff] at hrest
  obtain ⟨s, rest, rfl, hs, hrest⟩ := hrest
  rw [List.map_eq_cons_iff] at hrest
  obtain ⟨dot, d, rfl, hdot, -⟩ := hrest
  have hdot : dot = '.' := (toLower_eq_iff (by decide)).mp hdot
  subst hdot
  refine ⟨a, s, d, hhost, ha, ?_, (mem_congr_case (by decide) hs).not.mpr hno⟩
  cases s with
  | nil => exact .inl rfl
  | cons c s =>
    cases sfx with
    | nil => cases hs
    | cons e sfx =>
      obtain rfl : e = '-' := by simpa using hhead
      have hc : c = '-' := (toLower_eq_iff (by decide)).mp (List.cons.inj hs).1
      exact .inr (by rw [hc]; rfl)

/-- What is read off such a host is the label as the host spells it. -/
theorem hostLabel_of_hostOf (ht : IsLabel t) (h : HostOf t host) :
    '.' ∈ (upTo ':' host).toList ∧ hostLabel host = spelling t host ∧
      lowered (spelling t host) = lowered t := by
  obtain ⟨a, s, d, hhost, ha, hs, hcolon⟩ := h.exists
  have hnot : ∀ c : Char, c.isAlpha = false → c ∉ t.toList → c ∉ a :=
    fun c hc => (mem_congr_case hc ha).not.mpr
  have hspelling : spelling t host = String.ofList a := by
    have hlength : t.toList.length = a.length := by
      simpa using (congrArg List.length ha).symm
    rw [spelling, hhost, hlength, List.take_left]
  have hport : (upTo ':' host).toList = a ++ (s ++ '.' :: d.takeWhile (· ≠ ':')) := by
    have hfront : ':' ∉ a ++ (s ++ ['.']) := by
      simp [hnot ':' (by decide) ht.colon, hcolon]
    have hcut := toList_upTo (c := ':') (s := host) (a := a ++ (s ++ ['.'])) (r := d)
      (by rw [hhost]; simp) hfront
    rw [hcut]
    simp
  have hfirst := toList_upTo hport (hnot '.' (by decide) ht.dot)
  have htenant := toList_upTo hfirst (hnot '-' (by decide) ht.hyphen)
  have hnil : ((s ++ '.' :: d.takeWhile (· ≠ ':')).takeWhile (· ≠ '.')).takeWhile (· ≠ '-') = [] := by
    rcases hs with rfl | hs
    · rfl
    · obtain ⟨s, rfl⟩ : ∃ r, s = '-' :: r := List.head?_eq_some_iff.mp hs
      rfl
  refine ⟨?_, ?_, ?_⟩
  · rw [hport]
    simp
  · rw [hnil, List.append_nil] at htenant
    rw [hspelling, hostLabel, ← String.toList_inj, htenant, String.toList_ofList]
  · rw [hspelling, lowered_eq_iff, String.toList_ofList, ha]

theorem namesTenant_iff_of_hostOf (ht : IsLabel t) (h : HostOf t host) :
    NamesTenant loginLabel host ↔
      isReservedTenantLabel loginLabel t = false ∧ allDigits t = false := by
  obtain ⟨hdot, hlabel, hlow⟩ := hostLabel_of_hostOf ht h
  have hne : spelling t host ≠ "" := by
    intro hempty
    rw [hempty, lowered_eq_iff] at hlow
    exact ht.ne_empty (String.toList_inj.mp (List.map_eq_nil_iff.mp hlow.symm))
  have hdigits : allDigits (spelling t host) = allDigits t := by
    rw [← allDigits_lowered, hlow, allDigits_lowered]
  rw [NamesTenant, hlabel, isReservedTenantLabel_congr loginLabel hlow, hdigits]
  simp [hdot, hne]

/-- The tenant of such a host is the label in the letters of the host, or none
if the label is no tenant's. -/
theorem extractTenantFromHostname_of_host (ht : IsLabel t) (h : HostOf t host) :
    extractTenantFromHostname loginLabel host =
      if isReservedTenantLabel loginLabel t = true ∨ allDigits t = true then ""
      else spelling t host := by
  have hnames : NamesTenant loginLabel host ↔
      isReservedTenantLabel loginLabel t = false ∧ allDigits t = false :=
    namesTenant_iff_of_hostOf ht h
  by_cases hres : isReservedTenantLabel loginLabel t = true ∨ allDigits t = true
  · rw [if_pos hres]
    apply extractTenantFromHostname_of_not_namesTenant
    rw [hnames]
    rintro ⟨hno, hno'⟩
    rcases hres with hres | hres
    · rw [hres] at hno
      cases hno
    · rw [hres] at hno'
      cases hno'
  · rw [if_neg hres]
    rw [not_or, Bool.not_eq_true, Bool.not_eq_true] at hres
    rw [extractTenantFromHostname_of_namesTenant (hnames.mpr hres)]
    exact (hostLabel_of_hostOf ht h).2.1

theorem extractTenantFromHostname_eq_empty_iff_of_host (ht : IsLabel t) (h : HostOf t host) :
    extractTenantFromHostname loginLabel host = "" ↔
      isReservedTenantLabel loginLabel t = true ∨ allDigits t = true := by
  rw [extractTenantFromHostname_eq_empty_iff, namesTenant_iff_of_hostOf ht h]
  simp [or_iff_not_imp_left]

end Hosts

/-- Labels that differ beyond letter case name different tenants. -/
theorem extractTenantFromHostname_ne {loginLabel t t' host host' : String} (ht : IsLabel t)
    (ht' : IsLabel t') (h : HostOf t host) (h' : HostOf t' host') (hne : lowered t ≠ lowered t')
    (hres : ¬ (isReservedTenantLabel loginLabel t = true ∨ allDigits t = true))
    (hres' : ¬ (isReservedTenantLabel loginLabel t' = true ∨ allDigits t' = true)) :
    extractTenantFromHostname loginLabel host ≠ extractTenantFromHostname loginLabel host' := by
  rw [extractTenantFromHostname_of_host ht h, extractTenantFromHostname_of_host ht' h',
    if_neg hres, if_neg hres']
  intro heq
  apply hne
  calc lowered t = lowered (spelling t host) := (hostLabel_of_hostOf ht h).2.2.symm
    _ = lowered (spelling t' host') := by rw [heq]
    _ = lowered t' := (hostLabel_of_hostOf ht' h').2.2

/-- Two hosts of one label name one tenant exactly if they spell the label
alike or it is no tenant's; whether it is one, and that other labels name other
tenants, does not hang on the spelling. -/
theorem extractTenantFromHostname_eq_iff {loginLabel t host₁ host₂ : String} (ht : IsLabel t)
    (h₁ : HostOf t host₁) (h₂ : HostOf t host₂) :
    (extractTenantFromHostname loginLabel host₁ = extractTenantFromHostname loginLabel host₂ ↔
        isReservedTenantLabel loginLabel t = true ∨ allDigits t = true ∨
          spelling t host₁ = spelling t host₂) ∧
      (extractTenantFromHostname loginLabel host₁ = "" ↔
        isReservedTenantLabel loginLabel t = true ∨ allDigits t = true) ∧
      ∀ t' host', IsLabel t' → HostOf t' host' → lowered t ≠ lowered t' →
        ¬ (isReservedTenantLabel loginLabel t = true ∨ allDigits t = true) →
        ¬ (isReservedTenantLabel loginLabel t' = true ∨ allDigits t' = true) →
        extractTenantFromHostname loginLabel host₁ ≠ extractTenantFromHostname loginLabel host' := by
  refine ⟨?_, extractTenantFromHostname_eq_empty_iff_of_host ht h₁, fun t' host' ht' h' =>
    extractTenantFromHostname_ne ht ht' h₁ h'⟩
  rw [extractTenantFromHostname_of_host ht h₁, extractTenantFromHostname_of_host ht h₂, ← or_assoc]
  by_cases hres : isReservedTenantLabel loginLabel t = true ∨ allDigits t = true
  · rw [if_pos hres, if_pos hres]
    exact iff_of_true rfl (.inl hres)
  · rw [if_neg hres, if_neg hres, or_iff_right hres]

theorem extractTenantFromHostname_eq_iff_acme :
    (extractTenantFromHostname "login" "acme.example.com" =
          extractTenantFromHostname "login" "ACME-drive.example.com:8443" ↔
        isReservedTenantLabel "login" "acme" = true ∨ allDigits "acme" = true ∨
          spelling "acme" "acme.example.com" = spelling "acme" "ACME-drive.example.com:8443") ∧
      (extractTenantFromHostname "login" "acme.example.com" = "" ↔
        isReservedTenantLabel "login" "acme" = true ∨ allDigits "acme" = true) ∧
      ∀ t' host', IsLabel t' → HostOf t' host' → lowered "acme" ≠ lowered t' →
        ¬ (isReservedTenantLabel "login" "acme" = true ∨ allDigits "acme" = true) →
        ¬ (isReservedTenantLabel "login" t' = true ∨ allDigits t' = true) →
        extractTenantFromHostname "login" "acme.example.com" ≠
          extractTenantFromHostname "login" host' :=
  extractTenantFromHostname_eq_iff
    ⟨by decide, by decide, by decide, by decide⟩
    ⟨none, "example.com", none, by simp, by decide +kernel⟩
    ⟨some "drive", "example.com", some "8443", by simp, by decide +kernel⟩

theorem letter_case_names_other_tenant :
    ¬ ∀ t host₁ host₂, IsLabel t → HostOf t host₁ → HostOf t host₂ →
      extractTenantFromHostname "login" host₁ = extractTenantFromHostname "login" host₂ := by
  intro h
  have hhost : HostOf "acme" "acme.example.com" :=
    ⟨none, "example.com", none, by simp, by decide +kernel⟩
  have hcapital : HostOf "acme" "Acme.example.com" :=
    ⟨none, "example.com", none, by simp, by decide +kernel⟩
  have heq := h "acme" _ _ ⟨by decide, by decide, by decide, by decide⟩ hhost hcapital
  exact absurd heq (by decide +kernel)

end HttpBridge
