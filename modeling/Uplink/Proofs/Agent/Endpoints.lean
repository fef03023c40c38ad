import Uplink.Agent.Config
import Uplink.Proofs.Text.Trimming
/-!
Endpoints of an accepted configuration.  An endpoint is the trimmed base URL without slashes at its
end, and the path of a kind after one slash.  It keeps the scheme of the base URL as long as
something else than slashes follows the scheme there, and of this the check makes no condition.
-/
namespace Uplink

namespace AgentConfig

variable {c : AgentConfig} {scheme scheme' : String}

def schemes : List String := ["http://", "https://"]

def trimmedUrl (c : AgentConfig) : List Char := Text.trimChars c.omcUrl.toList

/-- Something else than slashes follows the scheme of the base URL. -/
def NamesHost (c : AgentConfig) : Prop :=
  ∃ scheme ∈ schemes, ∃ rest, c.trimmedUrl = scheme.toList ++ rest ∧ ∃ ch ∈ rest, ch ≠ '/'

/-! ### Schemes -/

/-- The check for a scheme. -/
theorem lacksScheme_iff (url : List Char) :
    (!"http://".toList.isPrefixOf url && !"https://".toList.isPrefixOf url) = true
      ↔ ¬∃ scheme ∈ schemes, scheme.toList <+: url := by
  rw [Bool.and_eq_true, Bool.not_eq_true', Bool.not_eq_true', ← Bool.not_eq_true,
    ← Bool.not_eq_true, List.isPrefixOf_iff_prefix, List.isPrefixOf_iff_prefix, ← not_or, schemes]
  exact not_congr ⟨fun h => h.elim (⟨_, by decide, ·⟩) (⟨_, by decide, ·⟩),
    fun ⟨scheme, hscheme, hp⟩ => by rcases List.mem_pair.mp hscheme with rfl | rfl <;> tauto⟩

/-- No other scheme passes the check. -/
theorem exists_scheme_of_validate (accepted : c.validate = .ok ()) :
    ∃ scheme ∈ schemes, scheme.toList <+: c.trimmedUrl := by
  unfold validate at accepted
  dsimp only at accepted
  split at accepted
  · cases accepted
  · split at accepted
    next => cases accepted
    next scheme => exact not_not.mp fun hlacks => scheme ((lacksScheme_iff _).mpr hlacks)

theorem toList_scheme (h : scheme ∈ schemes) : ∃ name, scheme.toList = name ++ [':', '/', '/'] := by
  rcases List.mem_pair.mp h with rfl | rfl
  · exact ⟨['h', 't', 't', 'p'], by decide⟩
  · exact ⟨['h', 't', 't', 'p', 's'], by decide⟩

/-- A URL begins with one scheme only. -/
theorem scheme_unique {url : List Char} (h : scheme ∈ schemes) (h' : scheme' ∈ schemes)
    (hp : scheme.toList <+: url) (hp' : scheme'.toList <+: url) : scheme = scheme' := by
  have hone := List.prefix_or_prefix_of_prefix hp hp'
  rcases List.mem_pair.mp h with rfl | rfl <;> rcases List.mem_pair.mp h' with rfl | rfl
  · rfl
  · exact absurd hone (by decide)
  · exact absurd hone (by decide)
  · rfl

theorem namesHost_iff {rest : List Char} (h : scheme ∈ schemes)
    (hurl : c.trimmedUrl = scheme.toList ++ rest) : c.NamesHost ↔ ∃ ch ∈ rest, ch ≠ '/' := by
  refine ⟨fun ⟨scheme', h', rest', hurl', hhost⟩ => ?_, fun hhost => ⟨scheme, h, rest, hurl, hhost⟩⟩
  obtain rfl := scheme_unique h h' (hurl ▸ List.prefix_append _ _)
    (hurl' ▸ List.prefix_append _ _)
  exact List.append_cancel_left (hurl.symm.trans hurl') ▸ hhost

/-! ### The base URL -/

/-- Only slashes at the end are missing. -/
theorem trimmedUrl_eq (c : AgentConfig) :
    ∃ slashes, c.trimmedUrl = c.baseUrl ++ List.replicate slashes '/' := by
  obtain ⟨after, hafter, hslash⟩ := Text.exists_dropEnd (· = '/') c.trimmedUrl
  have hall : after = List.replicate after.length '/' :=
    List.eq_replicate_iff.mpr ⟨rfl, fun ch hch => by simpa using hslash ch hch⟩
  exact ⟨after.length, hall ▸ hafter⟩

theorem getLast?_baseUrl (c : AgentConfig) : c.baseUrl.getLast? ≠ some '/' := fun h => by
  simpa using Text.getLast?_dropEnd h

theorem toList_endpoint (c : AgentConfig) (path : String) :
    (c.endpoint path).toList = c.baseUrl ++ ("/upload-ne/v1/" ++ path).toList := by
  rw [endpoint, String.append_assoc, String.toList_append, String.toList_ofList]

/-- A base URL that names something keeps its scheme. -/
theorem scheme_prefix_baseUrl {rest : List Char} (hurl : c.trimmedUrl = scheme.toList ++ rest)
    (hhost : ∃ ch ∈ rest, ch ≠ '/') : scheme.toList <+: c.baseUrl := by
  obtain ⟨ch, hch, hne⟩ := hhost
  have hbase : c.baseUrl = Text.dropEnd (· = '/') (scheme.toList ++ rest) := hurl ▸ rfl
  rw [hbase, Text.dropEnd_append_of_exists ⟨ch, hch, by simpa using hne⟩]
  exact List.prefix_append _ _

/-- One that names nothing loses the slashes of its scheme. -/
theorem baseUrl_of_bare {name rest : List Char} (hname : scheme.toList = name ++ [':', '/', '/'])
    (hurl : c.trimmedUrl = scheme.toList ++ rest) (hbare : ∀ ch ∈ rest, ch = '/') :
    c.baseUrl = name ++ [':'] := by
  have hsplit : c.trimmedUrl = name ++ [':'] ++ ('/' :: '/' :: rest) := by simp [hurl, hname]
  have hbase : c.baseUrl = Text.dropEnd (· = '/') (name ++ [':'] ++ ('/' :: '/' :: rest)) :=
    hsplit ▸ rfl
  have hslashes : ∀ ch ∈ '/' :: '/' :: rest, decide (ch = '/') = true := by simpa using hbare
  rw [hbase, Text.dropEnd_append_of_pos hslashes, Text.dropEnd_of_getLast? (by simp)]

theorem scheme_prefix_endpoint_iff (h : scheme ∈ schemes) (hp : scheme.toList <+: c.trimmedUrl)
    (path : String) : scheme.toList <+: (c.endpoint path).toList ↔ c.NamesHost := by
  obtain ⟨rest, hurl⟩ := hp
  rw [namesHost_iff h hurl.symm, toList_endpoint]
  refine ⟨fun hkept => ?_, fun hhost =>
    (scheme_prefix_baseUrl hurl.symm hhost).trans (List.prefix_append _ _)⟩
  by_contra hbare
  obtain ⟨name, hname⟩ := toList_scheme h
  rw [baseUrl_of_bare hname hurl.symm (by simpa using hbare), hname, List.append_assoc,
    List.prefix_append_right_inj, String.toList_append] at hkept
  revert hkept
  simp

/-! ### Endpoints -/

/-- Of an accepted configuration every endpoint is the trimmed base URL without the slashes at its
end, one slash, and the path below it.  It has no blank in front, and it begins with the scheme that
the check found exactly if something else than slashes follows that scheme. -/
theorem endpoint_of_validate (accepted : c.validate = .ok ()) (k : Kind) :
    ∃ base slashes, ∃ scheme ∈ schemes,
      Text.Trims c.omcUrl.toList (base ++ List.replicate slashes '/') ∧ base.getLast? ≠ some '/'
        ∧ (c.endpoint k.path).toList = base ++ '/' :: ("upload-ne/v1/" ++ k.path).toList
        ∧ (∀ ch ∈ (c.endpoint k.path).toList.head?, Text.isBlank ch = false)
        ∧ scheme.toList <+: base ++ List.replicate slashes '/'
        ∧ (scheme.toList <+: (c.endpoint k.path).toList ↔ c.NamesHost) := by
  obtain ⟨scheme, hscheme, hp⟩ := exists_scheme_of_validate accepted
  obtain ⟨slashes, hurl⟩ := c.trimmedUrl_eq
  have htrims : Text.Trims c.omcUrl.toList (c.baseUrl ++ List.replicate slashes '/') :=
    hurl ▸ Text.trims_trimChars _
  have hendpoint : (c.endpoint k.path).toList
      = c.baseUrl ++ '/' :: ("upload-ne/v1/" ++ k.path).toList := by
    rw [toList_endpoint, String.toList_append, String.toList_append]
    rfl
  refine ⟨c.baseUrl, slashes, scheme, hscheme, htrims, c.getLast?_baseUrl, hendpoint, ?_,
    hurl ▸ hp, scheme_prefix_endpoint_iff hscheme hp _⟩
  intro ch hch
  rw [hendpoint] at hch
  cases hbase : c.baseUrl with
  | nil =>
    have hslash : '/' = ch := by simpa [hbase] using hch
    exact hslash ▸ by decide
  | cons first base =>
    have hfirst : first = ch := by simpa [hbase] using hch
    exact htrims.first ch (by simp [hbase, hfirst])

/-- A base URL with blanks around it and slashes at its end. -/
def surrounded : AgentConfig := { omcUrl := "\n http://omc//\t" }

theorem endpoint_of_validate_surrounded :
    surrounded.endpoint Kind.alarm.path = "http://omc/upload-ne/v1/alarm"
      ∧ surrounded.validate = .ok ()
      ∧ ∃ base slashes, ∃ scheme ∈ schemes,
        Text.Trims surrounded.omcUrl.toList (base ++ List.replicate slashes '/')
          ∧ base.getLast? ≠ some '/'
          ∧ (surrounded.endpoint Kind.alarm.path).toList
            = base ++ '/' :: ("upload-ne/v1/" ++ Kind.alarm.path).toList
          ∧ (∀ ch ∈ (surrounded.endpoint Kind.alarm.path).toList.head?, Text.isBlank ch = false)
          ∧ scheme.toList <+: base ++ List.replicate slashes '/'
          ∧ (scheme.toList <+: (surrounded.endpoint Kind.alarm.path).toList
            ↔ surrounded.NamesHost) := by
  have accepted : surrounded.validate = .ok () := by decide +kernel
  exact ⟨by decide +kernel, accepted, endpoint_of_validate accepted .alarm⟩

/-- A scheme alone is accepted, and its endpoints begin with neither scheme. -/
theorem endpoint_bareScheme :
    let c : AgentConfig := { omcUrl := "http://" }
    c.validate = .ok () ∧ c.endpoint Kind.alarm.path = "http:/upload-ne/v1/alarm"
      ∧ ∀ scheme ∈ schemes, ¬scheme.toList <+: (c.endpoint Kind.alarm.path).toList := by
  decide +kernel

end AgentConfig

end Uplink
