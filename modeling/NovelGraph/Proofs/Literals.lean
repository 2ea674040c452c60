import Mathlib.Algebra.Ring.Parity
import NovelGraph.Proofs.Rendering

/-! Texts of the story in the literals of the script. A literal is read from its opening mark on,
and a backslash takes the character behind it along. Marks in a text are written behind a backslash,
and backslashes as they are. So a literal ends at its own closing mark, and says the text, exactly
if backslashes come in pairs wherever a mark or the end of the text follows them. -/
namespace NovelGraph

open Outcome Script

namespace Script

/-- The inside of a literal behind its opening mark `q`, and what follows the closing one. The flag
says that a backslash has taken the first character along. -/
def readLiteral (q : Char) : Bool → List Char → Option (List Char × List Char)
  | _, [] => none
  | true, c :: rest => (readLiteral q false rest).map fun r => (c :: r.1, r.2)
  | false, c :: rest =>
    if c = q then some ([], rest)
    else (readLiteral q (decide (c = '\\')) rest).map fun r => (c :: r.1, r.2)

/-- The text that the inside of a literal says: a mark behind a backslash is the mark alone, and all
else stands for itself. -/
def unescape (q : Char) : Bool → List Char → List Char
  | true, [] => ['\\']
  | true, c :: rest => (if c = q then [q] else ['\\', c]) ++ unescape q false rest
  | false, [] => []
  | false, c :: rest => if c = '\\' then unescape q true rest else c :: unescape q false rest

/-- A text with its marks behind backslashes. -/
def escape (q : Char) (cs : List Char) : List Char :=
  cs.flatMap fun c => if c = q then ['\\', q] else [c]

/-- The number of backslashes at the end. -/
def backslashes (cs : List Char) : ℕ := (cs.reverse.takeWhile (· == '\\')).length

/-- In front of every mark, and at the end, backslashes come in pairs. -/
def Paired (q : Char) (cs : List Char) : Prop :=
  ∀ n ≤ cs.length, (cs[n]? = none ∨ cs[n]? = some q) → Even (backslashes (cs.take n))

instance (q : Char) (cs : List Char) : Decidable (Paired q cs) := Nat.decidableBallLE _ _

variable {q c : Char} {cs tail done : List Char}

lemma backslashes_concat (cs : List Char) (c : Char) :
    backslashes (cs ++ [c]) = if c = '\\' then backslashes cs + 1 else 0 := by
  simp only [backslashes, List.reverse_append, List.reverse_singleton, List.singleton_append,
    List.takeWhile_cons, beq_iff_eq]
  split_ifs <;> simp

/-- Pairs behind what is done already. -/
def PairedFrom (q : Char) (done cs : List Char) : Prop :=
  ∀ n ≤ cs.length, (cs[n]? = none ∨ cs[n]? = some q) → Even (backslashes (done ++ cs.take n))

lemma pairedFrom_nil : PairedFrom q done [] ↔ Even (backslashes done) := by
  simp [PairedFrom]

lemma pairedFrom_cons : PairedFrom q done (c :: cs) ↔
    (c = q → Even (backslashes done)) ∧ PairedFrom q (done ++ [c]) cs := by
  unfold PairedFrom
  constructor
  · intro h
    refine ⟨fun hc => ?_, fun n hn hend => ?_⟩
    · simpa using h 0 (Nat.zero_le _) (.inr (by simp [hc]))
    · simpa using h (n + 1) (by simpa using hn) (by simpa using hend)
  · rintro ⟨hhead, htail⟩ n hn hend
    cases n with
    | zero => simpa using hhead (by simpa using hend)
    | succ n => simpa using htail n (by simpa using hn) (by simpa using hend)

lemma escapeQuotes_eq (s : String) : escapeQuotes s = String.ofList (escape '"' s.toList) := rfl

lemma escapeApostrophes_eq (s : String) :
    escapeApostrophes s = String.ofList (escape '\'' s.toList) := rfl

lemma escape_cons (q c : Char) (cs : List Char) :
    escape q (c :: cs) = (if c = q then ['\\', q] else [c]) ++ escape q cs := rfl

/-- Where a literal ends depends on whether a backslash is open when its reading begins. -/
lemma readLiteral_escape_iff (hq : q ≠ '\\') (tail : List Char) :
    readLiteral q (decide (Odd (backslashes done))) (escape q cs ++ q :: tail) =
        some (escape q cs, tail) ↔ PairedFrom q done cs := by
  induction cs generalizing done with
  | nil =>
    rw [pairedFrom_nil, ← Nat.not_odd_iff_even]
    by_cases hopen : Odd (backslashes done) <;> simp [hopen, escape, readLiteral]
  | cons c rest ih =>
    rw [pairedFrom_cons, ← ih, escape_cons, backslashes_concat, ← Nat.not_odd_iff_even]
    by_cases hmark : c = q
    · subst hmark
      by_cases hopen : Odd (backslashes done)
      · -- the escaping backslash is taken along itself, and the mark ends the literal
        simp [hopen, readLiteral]
      · simp [hopen, hq, Ne.symm hq, readLiteral]
    · by_cases hslash : c = '\\'
      · by_cases hopen : Odd (backslashes done) <;>
          simp [hslash, Ne.symm hq, hopen, Nat.odd_add_one, readLiteral]
      · by_cases hopen : Odd (backslashes done) <;>
          simp [hmark, hslash, hopen, readLiteral]

/-- An open backslash comes in front of the text. -/
lemma unescape_escape (hq : q ≠ '\\') (h : PairedFrom q done cs) :
    unescape q (decide (Odd (backslashes done))) (escape q cs) =
      (if Odd (backslashes done) then ['\\'] else []) ++ cs := by
  induction cs generalizing done with
  | nil => by_cases hopen : Odd (backslashes done) <;> simp [hopen, escape, unescape]
  | cons c rest ih =>
    obtain ⟨hhead, htail⟩ := pairedFrom_cons.mp h
    have hrest := ih htail
    rw [backslashes_concat] at hrest
    rw [escape_cons]
    by_cases hmark : c = q
    · subst hmark
      have hclosed : ¬Odd (backslashes done) := Nat.not_odd_iff_even.mpr (hhead rfl)
      rw [if_neg hq] at hrest
      simpa [hclosed, unescape] using hrest
    · by_cases hslash : c = '\\'
      · rw [if_pos hslash] at hrest
        by_cases hopen : Odd (backslashes done) <;>
          simpa [hslash, Ne.symm hq, hopen, Nat.odd_add_one, unescape] using hrest
      · rw [if_neg hslash] at hrest
        by_cases hopen : Odd (backslashes done) <;>
          simpa [hmark, hslash, hopen, unescape] using hrest

/-- A statement around a text of the story: what stands before the opening mark, the mark, the text,
and what follows the closing mark. -/
structure Quotation where
  before : String
  mark : Char
  text : String
  after : String

namespace Quotation

/-- What stands between the marks. -/
def inside (w : Quotation) : List Char := escape w.mark w.text.toList

def statement (w : Quotation) : String :=
  w.before ++ String.ofList (w.mark :: (w.inside ++ [w.mark])) ++ w.after

/-- Read from its opening mark on, the literal ends at its closing mark and says the text. -/
def ReadsBack (w : Quotation) : Prop :=
  readLiteral w.mark false (w.statement.toList.drop (w.before.length + 1)) =
      some (w.inside, w.after.toList) ∧
    unescape w.mark false w.inside = w.text.toList

lemma readsBack_iff {w : Quotation} (hq : w.mark ≠ '\\') :
    w.ReadsBack ↔ Paired w.mark w.text.toList := by
  have hliteral : w.statement.toList.drop (w.before.length + 1) =
      w.inside ++ w.mark :: w.after.toList := by
    simp [statement, ← String.length_toList]
  have hstart : decide (Odd (backslashes [])) = false := rfl
  rw [ReadsBack, hliteral, ← hstart, inside, readLiteral_escape_iff hq]
  refine and_iff_left_of_imp fun hpaired => ?_
  rw [unescape_escape hq hpaired]
  rfl

/-- The parameter whose text a kind of block puts in a literal. -/
def key? : BlockKind → Option String
  | .say | .narration | .center | .screenText => some "text"
  | .character => some "display_name"
  | _ => none

/-- How the statement of a block surrounds a text of the story. -/
def around? (kind : BlockKind) (cast : Option Cast) (indent : String) (ps : Params)
    (text : String) : Option Quotation :=
  match kind with
  | .say =>
    let who := param ps "who"
    let mood := param ps "expression"
    if who.isEmpty then some ⟨indent, '"', text, "\n"⟩
    else some
      ⟨indent ++ speaker cast who ++ (if mood.isEmpty then "" else " " ++ mood) ++ " ", '"', text,
        clause "at" (param ps "at") ++ clause "with" (param ps "with_transition") ++ "\n"⟩
  | .narration => some ⟨indent, '"', text, clause "with" (param ps "with_transition") ++ "\n"⟩
  | .center => some ⟨indent ++ "centered ", '"', text, "\n"⟩
  | .screenText =>
    some ⟨indent ++ "text ", '"', text,
      clause "xpos" (param ps "xpos") ++ clause "ypos" (param ps "ypos") ++ "\n"⟩
  | .character =>
    some ⟨indent ++ "define " ++ normalize (param ps "name") ++ " = Character(", '\'', text, ")\n"⟩
  | _ => none

end Quotation
end Script

namespace Block

variable {b : Block} {ps : Params} {key t : String}

lemma render_of_quotation (hps : b.params = .object ps)
    (hkey : Quotation.key? b.kind = some key) (hfull : param ps key ≠ "")
    (hname : b.kind = .character → param ps "name" ≠ "") (indent : String)
    (around : Surroundings) :
    ∃ w, Quotation.around? b.kind around.cast indent ps (param ps key) = some w ∧
      w.text = param ps key ∧ w.mark ≠ '\\' ∧ b.render indent around = .ok w.statement := by
  have hlist := paramList_of_object hps
  unfold render statement?
  rw [hlist]
  cases hk : b.kind <;> rw [hk] at hkey <;> cases hkey
  case narration | center | screenText =>
    refine ⟨_, rfl, rfl, by simp, ?_⟩
    simp [plainStatement?, ok_bind, pure, Except.pure, narration, centered, screenText, hfull,
      Quotation.statement, Quotation.inside, spoken, escapeQuotes_eq, String.append_assoc]
  case say =>
    by_cases hwho : param ps "who" = ""
    · refine ⟨_, if_pos (by simp [hwho]), rfl, by simp, ?_⟩
      simp [ok_bind, pure, Except.pure, say, hfull, hwho, Quotation.statement, Quotation.inside,
        spoken, escapeQuotes_eq, String.append_assoc]
    · refine ⟨_, if_neg (by simp [hwho]), rfl, by simp, ?_⟩
      simp [ok_bind, pure, Except.pure, say, hfull, hwho, Quotation.statement, Quotation.inside,
        spoken, escapeQuotes_eq, String.append_assoc]
  case character =>
    refine ⟨_, rfl, rfl, by simp, ?_⟩
    have hshown : nonEmpty? (param ps "display_name") = some (param ps "display_name") :=
      if_neg (by simpa using hfull)
    simp [plainStatement?, ok_bind, pure, Except.pure, characterDefinition, hname hk, characterLine,
      hshown, escapeApostrophes_eq, Quotation.statement, Quotation.inside, String.append_assoc]

/-- A text of the story that is not blank stands in a literal of the statement. Read from its
opening mark on, the literal ends at its own closing mark and says the text without the blanks at
its ends, exactly if backslashes come in pairs in front of each mark in the text and at its end. -/
theorem literal_reads_back_iff_paired (hps : b.params = .object ps)
    (hkey : Quotation.key? b.kind = some key) (ht : Value.lookup ps key = some (.text t))
    (hfull : Text.strip t ≠ "") (hname : b.kind = .character → param ps "name" ≠ "")
    (indent : String) (around : Surroundings) :
    ∃ w, Quotation.around? b.kind around.cast indent ps (Text.strip t) = some w ∧
      w.text = Text.strip t ∧ b.render indent around = .ok w.statement ∧
      (w.ReadsBack ↔ Paired w.mark (Text.strip t).toList) := by
  have hparam : param ps key = Text.strip t := by simp [param, paramOr, ht]
  rw [← hparam] at hfull ⊢
  obtain ⟨w, hw, htext, hmark, hrender⟩ := render_of_quotation hps hkey hfull hname indent around
  refine ⟨w, hw, htext, hrender, ?_⟩
  rw [← htext]
  exact Quotation.readsBack_iff hmark

/-- A block that tells a text. -/
def tellingBlock (text : String) : Block where
  id := .text "n"
  kind := .narration
  params := .object [("text", .text text)]
  x := .int 0
  y := .int 0

/-- Two backslashes in front of a quote do no harm. -/
theorem tellingBlock_pair_reads_back :
    Text.strip " a\\\\\"b " = "a\\\\\"b" ∧
      ∃ w : Quotation, w.text = "a\\\\\"b" ∧
        (tellingBlock " a\\\\\"b ").render "" {} = .ok w.statement ∧ w.ReadsBack := by
  have hstrip : Text.strip " a\\\\\"b " = "a\\\\\"b" := by decide
  have hpaired : Paired '"' "a\\\\\"b".toList := by decide
  obtain ⟨w, hw, htext, hrender, hreads⟩ := literal_reads_back_iff_paired
    (b := tellingBlock " a\\\\\"b ") rfl rfl rfl (by decide) (by simp [tellingBlock]) "" {}
  have hmark : w.mark = '"' := by
    obtain rfl := Option.some.inj hw
    rfl
  rw [hmark, hstrip] at hreads
  exact ⟨hstrip, w, htext.trans hstrip, hrender, hreads.mpr hpaired⟩

/-- One backslash at the end of a text takes the closing quote along, and one in front of a quote
ends the literal there: what follows is no longer text. -/
theorem tellingBlock_breaks_out :
    (tellingBlock "a\\").render "" {} = .ok "\"a\\\"\n" ∧
      readLiteral '"' false "a\\\"\n".toList = none ∧
      (tellingBlock "a\\\" jump b").render "" {} = .ok "\"a\\\\\" jump b\"\n" ∧
      readLiteral '"' false "a\\\\\" jump b\"\n".toList =
        some ("a\\\\".toList, " jump b\"\n".toList) := by
  refine ⟨rfl, by decide, rfl, by decide⟩

end Block
end NovelGraph
