import QuorumGateway.Proofs.Config.Handler
import QuorumGateway.Proofs.Config.Layering
import QuorumGateway.Proofs.Decimal.Reader
/-!
The settings that a file and the environment can give, where they stand, and what they arrive as. In a file a setting
stands under its documented name; the variable of a setting stands for that name in small letters. For the settings of
the gateway itself these are one place, for those of the handler they are two.

- `apart_places`: no place of a setting leads to a place of another one, and neither of the two places of a setting of
  the handler leads to the other.
- `variableKey_eq`, `path_key`: the variable of a setting has its place, however its name is spelt.
- `Kind.delivered_file`, `Kind.delivered_variable`: the values of a file arrive, and so do those of the variables, but
  for texts, which may be taken for something else.
-/

namespace QuorumGateway

open Decimal Decode Layers

/-! ## Settings and their values -/

/-- what a value of a setting is -/
inductive Setting.Kind where
  | text
  | format
  /-- a whole number below a bound, and the name that such numbers go by -/
  | count (bound : Nat) (expected : String)
  | rate

/-- the settings that both a file and the environment can give -/
inductive Setting where
  | level | format | donId | handlerName | faulty
  | chainId | contractAddress | blockConfirmations | updateFrequencySec | updateTimeoutSec
  | globalRps | globalBurst | perUserRps | perUserBurst
  | maxPendingPerUser | maxPendingGlobal | requestTimeoutMillis
deriving DecidableEq, Repr

namespace Setting

namespace Kind

def Value : Kind → Type
  | text => String
  | format => LogFormat
  | count _ _ => Nat
  | rate => Binary64

/-- the format with a name -/
def format? (name : String) : Option LogFormat := (LogFormat.known.find? (·.1 == name)).map Prod.snd

/-- a number of a document as one of the binary format -/
def rounded : Number → Binary64
  | .int i => Binary64.ofInt i
  | .float x => x

/-- the value that a document is, in a file -/
def ofJson? : (κ : Kind) → Json → Option κ.Value
  | text, .string s => some s
  | format, .string s => format? s
  | count bound _, .number (.int (.ofNat n)) => (some n).filter fun n : Nat => n < bound
  | rate, .number n => (some (rounded n)).filter RateSettings.isRate
  | _, _ => none

/-- the value that a text spells, in a variable -/
def ofText? : (κ : Kind) → String → Option κ.Value
  | text, t => some t
  | format, t => format? t
  | count bound _, t => (word? t).filter fun n : Nat => n < bound
  | rate, t => (float? t).filter RateSettings.isRate

end Kind

def all : List Setting :=
  [level, format, donId, handlerName, faulty, chainId, contractAddress, blockConfirmations, updateFrequencySec,
   updateTimeoutSec, globalRps, globalBurst, perUserRps, perUserBurst, maxPendingPerUser, maxPendingGlobal,
   requestTimeoutMillis]

theorem mem_all (k : Setting) : k ∈ all := by cases k <;> decide

/-- where a setting stands in a file -/
def path : Setting → List String
  | level => ["logging", "level"]
  | format => ["logging", "format"]
  | donId => ["don", "don_id"]
  | handlerName => ["don", "handler_name"]
  | faulty => ["don", "f"]
  | chainId => ["don", "handler_config", "allowlistConfig", "chainID"]
  | contractAddress => ["don", "handler_config", "allowlistConfig", "contractAddress"]
  | blockConfirmations => ["don", "handler_config", "allowlistConfig", "blockConfirmations"]
  | updateFrequencySec => ["don", "handler_config", "allowlistConfig", "updateFrequencySec"]
  | updateTimeoutSec => ["don", "handler_config", "allowlistConfig", "updateTimeoutSec"]
  | globalRps => ["don", "handler_config", "rateLimiterConfig", "globalRPS"]
  | globalBurst => ["don", "handler_config", "rateLimiterConfig", "globalBurst"]
  | perUserRps => ["don", "handler_config", "rateLimiterConfig", "perUserRPS"]
  | perUserBurst => ["don", "handler_config", "rateLimiterConfig", "perUserBurst"]
  | maxPendingPerUser => ["don", "handler_config", "maxPendingRequestPerUser"]
  | maxPendingGlobal => ["don", "handler_config", "maxPendingRequestsGlobal"]
  | requestTimeoutMillis => ["don", "handler_config", "requestTimeoutMillis"]

def kind : Setting → Kind
  | level | donId | handlerName | contractAddress => .text
  | format => .format
  | faulty | maxPendingPerUser | maxPendingGlobal => .count (2 ^ 64) "usize"
  | chainId | blockConfirmations | updateFrequencySec | updateTimeoutSec | requestTimeoutMillis => .count (2 ^ 64) "u64"
  | globalBurst | perUserBurst => .count (2 ^ 32) "u32"
  | globalRps | perUserRps => .rate

/-- the name in the settings of the handler that a setting stands under, or in -/
def handlerKey (k : Setting) : Option String := k.path[2]?

/-- where a setting stands that a variable gives -/
def variablePath (k : Setting) : List String := k.path.map Text.lower

/-- the name of the variable that gives a setting, in small letters -/
def variableName (k : Setting) : String := "don_gateway__" ++ "__".intercalate k.variablePath

/-! ## Places -/

/-- the places of the settings against each other, in files and from variables: those of two settings lie apart, and a
setting of the handler has two places, none of which leads to the other -/
theorem apart_places (k k' : Setting) :
    (k = k' ∨ apart k.path k'.path = true ∧ apart k.variablePath k'.variablePath = true) ∧
      (k.handlerKey ≠ none → apart k'.path k.variablePath = true ∧ apart k'.variablePath k.path = true) := by
  have h : ∀ k ∈ all, ∀ k' ∈ all,
      (k = k' ∨ apart k.path k'.path = true ∧ apart k.variablePath k'.variablePath = true) ∧
        (k.handlerKey ≠ none → apart k'.path k.variablePath = true ∧ apart k'.variablePath k.path = true) := by
    decide +kernel
  exact h k (mem_all k) k' (mem_all k')

theorem apart_path (k k' : Setting) : k = k' ∨ apart k.path k'.path = true :=
  (apart_places k k').1.imp_right And.left

theorem apart_variablePath (k k' : Setting) : k = k' ∨ apart k.variablePath k'.variablePath = true :=
  (apart_places k k').1.imp_right And.right

theorem apart_cross {k : Setting} (hk : k.handlerKey ≠ none) (k' : Setting) :
    apart k'.path k.variablePath = true ∧ apart k'.variablePath k.path = true :=
  (apart_places k k').2 hk

/-- a setting of the gateway itself has one place -/
theorem variablePath_gateway {k : Setting} (hk : k.handlerKey = none) : k.variablePath = k.path := by
  cases k <;> first | rfl | cases hk

theorem path_ne_nil (k : Setting) : k.path ≠ [] := by cases k <;> exact List.cons_ne_nil _ _

/-- the place of the members of the network, which only a file gives -/
def membersPath : List String := ["don", "members"]

theorem apart_members (k : Setting) :
    apart k.path membersPath = true ∧ apart membersPath k.path = true ∧
      apart k.variablePath membersPath = true ∧ apart membersPath k.variablePath = true := by
  cases k <;> decide

/-! ## Variables -/

/-- the key of a setting that a variable gives: its names with points between them -/
def variableKeyChars (k : Setting) : List Char := (k.variablePath.headD "").toList ++ pointed k.variablePath.tail

theorem variableKey_eq {name : String} {k : Setting} (h : Text.lower name = k.variableName) :
    variableKey name = some (String.ofList k.variableKeyChars) := by
  have hdotted : dotted (['_', '_'].intercalate (k.variablePath.map String.toList)) = k.variableKeyChars := by
    cases k <;> decide
  have hchars : (Text.lower name).toList = mark ++ ['_', '_'].intercalate (k.variablePath.map String.toList) := by
    rw [h, variableName, String.toList_append, String.toList_intercalate]
    rfl
  have hmark : mark.isPrefixOf (mark ++ ['_', '_'].intercalate (k.variablePath.map String.toList)) = true := by
    rw [List.isPrefixOf_iff_prefix]
    exact List.prefix_append _ _
  simp only [variableKey, hchars, hmark, if_true, List.drop_left, hdotted]

theorem path_key (k : Setting) : Layers.path (String.ofList k.variableKeyChars) = k.variablePath.map .name := by
  have hk : ∀ n ∈ k.variablePath, IsName n.toList := by cases k <;> decide
  rw [variableKeyChars]
  cases hpath : k.variablePath with
  | nil => exact absurd (List.map_eq_nil_iff.1 hpath) (path_ne_nil k)
  | cons first names =>
    rw [hpath] at hk
    obtain ⟨hfirst, hothers⟩ := List.forall_mem_cons.1 hk
    exact path_pointed hfirst hothers

/-! ## Values on their way -/

theorem isLeaf_variableValue (t : String) : isLeaf (variableValue t) = true := by
  unfold variableValue
  split_ifs
  · rfl
  · rfl
  · split
    · rfl
    · split <;> rfl

/-- a text that is a number is not taken for a truth value -/
theorem variableValue_of_float? {t : String} {x : Binary64} (h : float? t = some x) :
    variableValue t = match int? t with
      | some n => .int n
      | none => .float x := by
  have hne : Text.lower t ≠ "true" ∧ Text.lower t ≠ "false" := by
    constructor <;> intro heq
    · have hchars : (Text.lower t).toList = 't' :: ['r', 'u', 'e'] := heq ▸ rfl
      rw [float?_of_word (by decide) (by decide) (by decide) hchars] at h
      cases h
    · have hchars : (Text.lower t).toList = 'f' :: ['a', 'l', 's', 'e'] := heq ▸ rfl
      rw [float?_of_word (by decide) (by decide) (by decide) hchars] at h
      cases h
  cases hint : int? t <;> simp only [variableValue, if_neg hne.1, if_neg hne.2, h, hint]

/-- a whole number as it is kept: in the binary format if it is out of the signed 64-bit range -/
def keptNat (n : Nat) : Json := if n < 2 ^ 63 then .nat n else .float (Binary64.ofNat n)

theorem variableValue_of_word? {t : String} {n : Nat} (h : word? t = some n) : variableValue t = keptNat n := by
  rw [variableValue_of_float? (float?_of_word? h), int?_of_word? h, keptNat]
  by_cases hn : n < 2 ^ 63
  · rw [if_pos hn, if_pos hn]
    rfl
  · rw [if_neg hn, if_neg hn]

theorem fileValue_nat (n : Nat) : fileValue (.number (.int n)) = keptNat n := by
  rw [fileValue, fileNumber, keptNat]
  by_cases hn : n < 2 ^ 63
  · rw [if_pos (by exact_mod_cast hn), if_pos hn]
    rfl
  · rw [if_neg (by exact_mod_cast hn), if_neg hn, Binary64.ofInt_natCast]
    rfl

/-- a value that arrives as a document -/
def Kind.Delivered : (κ : Kind) → κ.Value → Json → Prop
  | .text, s, v => v = .string s
  | .format, f, v => v = .string f.text
  | .count bound _, n, v => (show Nat from n) < bound ∧ v = keptNat n
  | .rate, x, v => RateSettings.isRate x = true ∧ (v = .float x ∨ ∃ i, v = .int i ∧ Binary64.ofInt i = x)

theorem text_of_format? {name : String} {f : LogFormat} (h : Kind.format? name = some f) : name = f.text := by
  obtain ⟨⟨name', f'⟩, hfind, rfl⟩ := Option.map_eq_some_iff.1 h
  obtain rfl : name' = name := by simpa using List.find?_some hfind
  have hmem := List.mem_of_find?_eq_some hfind
  simp only [LogFormat.known, List.mem_cons, Prod.mk.injEq, List.not_mem_nil, or_false] at hmem
  rcases hmem with ⟨rfl, rfl⟩ | ⟨rfl, rfl⟩ <;> rfl

theorem Kind.ofText?_count (bound : Nat) (expected t : String) :
    (count bound expected).ofText? t = (word? t).filter fun n : Nat => n < bound := rfl

theorem Kind.ofText?_rate (t : String) : rate.ofText? t = (float? t).filter RateSettings.isRate := rfl

theorem Kind.ofJson?_count (bound : Nat) (expected : String) (n : Nat) :
    (count bound expected).ofJson? (.number (.int n)) = (some n).filter fun n : Nat => n < bound := rfl

theorem Kind.ofJson?_rate (n : Number) :
    rate.ofJson? (.number n) = (some (rounded n)).filter RateSettings.isRate := rfl

theorem Kind.isLeaf_of_isSome {κ : Kind} {j : Json} (h : (κ.ofJson? j).isSome = true) : isLeaf j = true := by
  cases j with
  | object found => cases κ <;> cases h
  | _ => rfl

/-- what a file gives arrives -/
theorem Kind.delivered_file {κ : Kind} {j : Json} {x : κ.Value} (h : κ.ofJson? j = some x) :
    κ.Delivered x (fileValue j) := by
  cases κ with
  | text =>
    cases j with
    | string s => cases h; rfl
    | _ => cases h
  | format =>
    cases j with
    | string s =>
      rw [Delivered, ← text_of_format? h]
      rfl
    | _ => cases h
  | count bound expected =>
    cases j with
    | number n =>
      rcases n with (n | n) | y
      · obtain ⟨hx, hlt⟩ := Option.filter_eq_some_iff.1 ((ofJson?_count bound expected n).symm.trans h)
        cases hx
        exact ⟨by simpa using hlt, fileValue_nat x⟩
      · cases h
      · cases h
    | _ => cases h
  | rate =>
    cases j with
    | number n =>
      obtain ⟨hx, hrate⟩ := Option.filter_eq_some_iff.1 ((ofJson?_rate n).symm.trans h)
      cases hx
      refine ⟨hrate, ?_⟩
      cases n with
      | int i =>
        rw [fileValue, fileNumber]
        split_ifs
        · exact .inr ⟨i, rfl, rfl⟩
        · exact .inl rfl
      | float y => exact .inl rfl
    | _ => cases h

theorem not_isRate_negative_zero : RateSettings.isRate (Binary64.ofRatio true 0 1) = false := by decide +kernel

/-- what a variable gives arrives, unless it is a text -/
theorem Kind.delivered_variable {κ : Kind} {t : String} {x : κ.Value} (hκ : κ ≠ .text) (h : κ.ofText? t = some x) :
    κ.Delivered x (variableValue t) := by
  cases κ with
  | text => exact absurd rfl hκ
  | format =>
    have htext : t = LogFormat.text x := text_of_format? h
    subst htext
    have hformats : ∀ f ∈ [LogFormat.pretty, .json],
        Text.lower f.text ≠ "true" ∧ Text.lower f.text ≠ "false" ∧ int? f.text = none ∧ float? f.text = none := by
      decide +kernel
    obtain ⟨htrue, hfalse, hint, hfloat⟩ := hformats x (by cases x <;> decide)
    rw [Delivered, variableValue, if_neg htrue, if_neg hfalse, hint, hfloat]
  | count bound expected =>
    obtain ⟨hword, hlt⟩ := Option.filter_eq_some_iff.1 ((ofText?_count bound expected t).symm.trans h)
    exact ⟨by simpa using hlt, variableValue_of_word? hword⟩
  | rate =>
    obtain ⟨hfloat, hrate⟩ := Option.filter_eq_some_iff.1 ((ofText?_rate t).symm.trans h)
    refine ⟨hrate, ?_⟩
    rw [variableValue_of_float? hfloat]
    cases hint : int? t with
    | none => exact .inl rfl
    | some i =>
      refine .inr ⟨i, rfl, (ofInt_of_int? hint hfloat).resolve_right ?_⟩
      rintro rfl
      rw [not_isRate_negative_zero] at hrate
      cases hrate

end Setting

end QuorumGateway
