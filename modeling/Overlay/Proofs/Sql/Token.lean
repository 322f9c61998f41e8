import Mathlib.Data.List.Basic
import Overlay.Proofs.SchemaText.Writing

/-!
# Tokens

A text of queries and statements is cut into words and single signs, and white space only keeps
words apart (`tokens`). A text in which words and separators take turns has the tokens of its parts
(`tokens_append_of_start`, `tokens_append_of_stop`). A `Reader` takes what it reads from the front
of a list of tokens; `separated` reads entries with a token between any two of them.
-/

namespace Overlay.Sql

open SchemaText.Grammar Text

/-- A word or a single sign. -/
inductive Token where
  | word (text : String)
  | sign (symbol : Char)
  deriving DecidableEq, Repr

/-- The word that has been started, if one has. -/
def finished (started : List Char) : List Token :=
  if started.isEmpty then [] else [.word (String.ofList started)]

/-- The tokens of a text that goes on with a started word. -/
def scan (started : List Char) : List Char → List Token
  | [] => finished started
  | c :: cs =>
    if isWordChar c then scan (started ++ [c]) cs
    else finished started ++ (if isBlank c then [] else [.sign c]) ++ scan [] cs

/-- The tokens of a text. -/
def tokens (text : String) : List Token :=
  scan [] text.toList

/-! ### Tokens of parts -/

section

variable {c : Char} {a b : String} {cs rest started : List Char}

theorem scan_cons_of_not_wordChar (hc : isWordChar c = false) :
    scan started (c :: cs) =
      finished started ++ (if isBlank c then [] else [.sign c]) ++ scan [] cs := by
  rw [scan, hc]
  rfl

theorem scan_append_of_free (h : Free isWordChar rest) :
    scan started (cs ++ rest) = scan started cs ++ scan [] rest := by
  induction cs generalizing started with
  | nil =>
    cases rest with
    | nil => exact (List.append_nil _).symm
    | cons c rest =>
      rw [List.nil_append, scan_cons_of_not_wordChar (free_cons.1 h),
        scan_cons_of_not_wordChar (free_cons.1 h)]
      exact List.append_assoc ..
  | cons c cs ih =>
    rw [List.cons_append, scan, scan]
    split
    · exact ih
    · simp only [ih, List.append_assoc]

theorem scan_of_forall (h : ∀ c ∈ cs, isWordChar c = true) :
    scan started cs = finished (started ++ cs) := by
  induction cs generalizing started with
  | nil => rw [scan, List.append_nil]
  | cons c cs ih =>
    obtain ⟨hc, hcs⟩ := List.forall_mem_cons.1 h
    rw [scan, hc, if_pos rfl, ih hcs, List.append_assoc]
    rfl

/-- A text that starts with no word character starts new tokens. -/
theorem tokens_append_of_start (h : Free isWordChar b.toList) :
    tokens (a ++ b) = tokens a ++ tokens b := by
  rw [tokens, String.toList_append]
  exact scan_append_of_free h

/-- Behind a text that ends with no word character there are new tokens. -/
theorem tokens_append_of_stop (h : Free isWordChar a.toList.reverse) :
    tokens (a ++ b) = tokens a ++ tokens b := by
  rw [tokens, tokens, tokens, String.toList_append]
  obtain hnil | ⟨init, c, hlast⟩ := List.eq_nil_or_concat a.toList
  · rw [hnil]
    rfl
  · rw [hlast, List.concat_eq_append, List.reverse_append] at h
    have hc : isWordChar c = false := free_cons.1 h
    have hfree (cs : List Char) : Free isWordChar (c :: cs) := free_cons.2 hc
    rw [hlast, List.concat_eq_append, List.append_assoc, List.singleton_append,
      scan_append_of_free (hfree _), scan_append_of_free (hfree _),
      scan_cons_of_not_wordChar hc, scan_cons_of_not_wordChar hc]
    simp [scan, finished]

theorem tokens_append_of_eq {ts : List Token} (h : Free isWordChar a.toList.reverse)
    (ha : tokens a = ts) : tokens (a ++ b) = ts ++ tokens b := by
  rw [tokens_append_of_stop h, ha]

theorem tokens_of_isWord (h : IsWord a) : tokens a = [.word a] := by
  obtain ⟨hne, hword⟩ := isWord_iff.1 h
  rw [tokens, scan_of_forall (List.all_eq_true.1 hword), List.nil_append, finished,
    if_neg (by simpa using hne), String.ofList_toList]

end

/-- A text that belongs to no word in front of it or behind it. -/
structure Separator (text : String) : Prop where
  nonempty : text.toList ≠ []
  start : Free isWordChar text.toList
  stop : Free isWordChar text.toList.reverse

instance (text : String) : Decidable (Separator text) :=
  decidable_of_iff (text.toList ≠ [] ∧ Free isWordChar text.toList ∧
      Free isWordChar text.toList.reverse)
    ⟨fun h => ⟨h.1, h.2.1, h.2.2⟩, fun h => ⟨h.nonempty, h.start, h.stop⟩⟩

/-- A text between two others has its own tokens if it is a separator. -/
theorem tokens_between {separator : String} (h : Separator separator) (a b : String) :
    tokens (a ++ separator ++ b) = tokens a ++ tokens separator ++ tokens b := by
  have hstart : Free isWordChar (separator ++ b).toList := by
    obtain ⟨c, cs, hcs⟩ := List.exists_cons_of_ne_nil h.nonempty
    have hfree := h.start
    rw [hcs] at hfree
    rw [String.toList_append, hcs]
    exact free_cons.2 (free_cons.1 hfree)
  rw [String.append_assoc, tokens_append_of_start hstart, tokens_append_of_stop h.stop,
    List.append_assoc]

/-! ### Readers -/

/-- Reads a value from the front of a list of tokens and gives the rest. -/
abbrev Reader (α : Type) := List Token → Option (α × List Token)

/-- The tokens behind those of a text. -/
def skip (text : String) (ts : List Token) : Option (List Token) :=
  ts.dropPrefix? (tokens text)

/-- One or more entries with a token between any two of them. -/
def separated {α : Type} (item : Reader α) (separator : Token) (ts : List Token) :
    Option (List α × List Token) :=
  match item ts with
  | none => none
  | some (a, []) => some ([a], [])
  | some (a, t :: rest) =>
    if t = separator ∧ rest.length < ts.length then
      match separated item separator rest with
      | none => some ([a], t :: rest)
      | some (as, rest) => some (a :: as, rest)
    else some ([a], t :: rest)
termination_by ts.length

/-- The reader reads the value from the tokens of the text, whatever comes behind them. -/
def Reads {α : Type} (item : Reader α) (text : String) (a : α) : Prop :=
  ∀ rest, item (tokens text ++ rest) = some (a, rest)

/-- The tokens do not go on with a further entry. -/
def Stops {α : Type} (item : Reader α) (separator : Token) (ts : List Token) : Prop :=
  ∀ rest, ts = separator :: rest → item rest = none

/-- A reader that goes on behind a value reads what it reads behind that value. -/
theorem bind_of_eq_some {α β : Type} {x : Option α} {f : α → Option β} {a : α} {result : Option β}
    (h : x = some a) (hresult : f a = result) : (x >>= f) = result := by
  rw [h]
  exact hresult

@[simp] theorem skip_tokens (text : String) (ts : List Token) :
    skip text (tokens text ++ ts) = some ts :=
  List.dropPrefix?_append_of_beq _ (beq_self_eq_true _)

section

variable {α : Type} {item : Reader α} {separator : Token} {a : α} {as : List α}
  {ts rest : List Token}

theorem stops_append {text : String} (h : (tokens text).head?.any (· != separator) = true)
    (ts : List Token) : Stops item separator (tokens text ++ ts) := by
  intro rest heq
  cases htokens : tokens text with
  | nil => simp [htokens] at h
  | cons t _ =>
    rw [htokens, List.cons_append] at heq
    simp [htokens, (List.cons.inj heq).1] at h

theorem separated_eq_none (h : item ts = none) : separated item separator ts = none := by
  rw [separated, h]

theorem ne_none_of_separated (h : separated item separator ts = some (as, rest)) :
    item ts ≠ none := by
  intro hnone
  rw [separated_eq_none hnone] at h
  cases h

theorem separated_of_stops (h : item ts = some (a, rest)) (hrest : Stops item separator rest) :
    separated item separator ts = some ([a], rest) := by
  rw [separated, h]
  cases rest with
  | nil => rfl
  | cons t rest =>
    dsimp only
    split
    · next hsep => rw [separated_eq_none (hrest rest (by rw [hsep.1]))]
    · rfl

theorem separated_cons (h : item ts = some (a, separator :: rest)) (hlt : rest.length < ts.length)
    {last : List Token} (hrest : separated item separator rest = some (as, last)) :
    separated item separator ts = some (a :: as, last) := by
  rw [separated, h]
  dsimp only
  rw [if_pos ⟨rfl, hlt⟩, hrest]

/-- Entries that are written with separators between them are read back. -/
theorem separated_intercalate {β : Type} {text : String} {f : β → String} {value : β → α}
    {bs : List β} (htext : Separator text) (hseparator : tokens text = [separator])
    (hitem : ∀ b ∈ bs, Reads item (f b) (value b)) (hne : bs ≠ [])
    (hrest : Stops item separator rest) :
    separated item separator (tokens (text.intercalate (bs.map f)) ++ rest) =
      some (bs.map value, rest) := by
  induction bs with
  | nil => exact absurd rfl hne
  | cons b bs ih =>
    obtain ⟨hb, hbs⟩ := List.forall_mem_cons.1 hitem
    cases bs with
    | nil => simpa using separated_of_stops (hb rest) hrest
    | cons next bs =>
      have hmore := ih hbs (List.cons_ne_nil _ _)
      rw [List.map_cons, List.map_cons, String.intercalate_cons_cons, tokens_between htext,
        hseparator, List.append_assoc, List.append_assoc]
      refine separated_cons (hb _) ?_ hmore
      simp
      omega

end

end Overlay.Sql
