import Spmfilter.Settings.Parse
import Spmfilter.Smtpd.Address

/-!
# The address of the client

`XFORWARD` passes on what a proxy knows about the client, as `name=value` attributes.  The
code looks for `ADDR=` anywhere in the line, takes all that follows for the value, and cuts
five bytes off when it finds `IPv6:` anywhere in it.

* `XforwardLine` is a line that can be written down.
* `find_addr` and `find_other` are the two places where the first search can stop.
* `strstrip_fields` is the text that is taken from there.
* `xforward_iff` says for which lines the value of the attribute comes out.
-/

namespace Spmfilter

open CString

/-! ## Lines -/

/-- `name=value`. -/
structure Attribute where
  name : Bytes
  value : Bytes
  name_free : ∀ c ∈ name, isspace c = false ∧ c ≠ EQUALS ∧ c ≠ 0
  value_free : ∀ c ∈ value, isspace c = false ∧ c ≠ 0

def Attribute.text (a : Attribute) : Bytes := a.name ++ EQUALS :: a.value

def Attribute.IsAddr (a : Attribute) : Prop := a.name.map tolower = ascii "addr"

instance (a : Attribute) : Decidable a.IsAddr :=
  inferInstanceAs (Decidable (a.name.map tolower = ascii "addr"))

/-- A space and the text of each attribute. -/
def spaced (attributes : List Attribute) : Bytes := attributes.flatMap fun a => 32 :: a.text

/-- An `XFORWARD` line with one attribute `ADDR`. -/
structure XforwardLine where
  cmd : Bytes
  before : List Attribute
  addr : Attribute
  after : List Attribute
  eol : Bytes
  cmd_eq : cmd.map tolower = ascii "xforward"
  before_other : ∀ a ∈ before, ¬ a.IsAddr
  addr_named : addr.IsAddr
  after_other : ∀ a ∈ after, ¬ a.IsAddr
  eol_space : ∀ c ∈ eol, isspace c = true

def XforwardLine.req (l : XforwardLine) : Bytes :=
  l.cmd ++ (spaced (l.before ++ l.addr :: l.after) ++ l.eol)

def ADDR_KEY : Bytes := ascii "ADDR="
def V6_TAG : Bytes := ascii "IPv6:"

/-- The value of an attribute `ADDR` without its tag. -/
def forwarded (value : Bytes) : Bytes :=
  if hasPrefixNoCase value V6_TAG then value.drop 5 else value

/-- What `smf_session_set_xforward_addr` makes of a text. -/
def recordedAddr (xfwd : Bytes) : Bytes :=
  if (strcasestr xfwd V6_TAG).isSome then xfwd.drop 5 else xfwd

theorem smfSessionSetXforwardAddr_addr (session : Session) (xfwd : Bytes) :
    (smfSessionSetXforwardAddr session xfwd).xforwardAddr = some (recordedAddr xfwd) := by
  unfold smfSessionSetXforwardAddr recordedAddr V6_TAG
  split <;> rfl

/-! ## Attributes in a text -/

theorem Attribute.text_free (a : Attribute) {c : UInt8} (hc : c ∈ a.text) : isspace c = false := by
  rcases List.mem_append.mp hc with hname | hc
  · exact (a.name_free c hname).1
  · rcases List.mem_cons.mp hc with rfl | hvalue
    · decide
    · exact (a.value_free c hvalue).1

theorem trimmed_of_free {s : Bytes} (hne : s ≠ []) (hs : ∀ c ∈ s, isspace c = false) :
    Trimmed s where
  ne_nil := hne
  head := fun c hc => hs c (List.mem_of_mem_head? hc)
  last := fun c hc => hs c (List.mem_of_getLast? hc)

theorem Attribute.text_ne_nil (a : Attribute) : a.text ≠ [] :=
  List.append_ne_nil_of_right_ne_nil _ (List.cons_ne_nil _ _)

theorem Attribute.length_text (a : Attribute) :
    a.text.length = a.name.length + 1 + a.value.length := by
  rw [Attribute.text, List.length_append, List.length_cons]
  omega

theorem spaced_cons (a : Attribute) (as : List Attribute) :
    spaced (a :: as) = 32 :: (a.text ++ spaced as) := rfl

theorem spaced_append (as bs : List Attribute) : spaced (as ++ bs) = spaced as ++ spaced bs :=
  List.flatMap_append

theorem trimmed_spaced {x : Bytes} (hx : Trimmed x) (as : List Attribute) :
    Trimmed (x ++ spaced as) := by
  induction as generalizing x with
  | nil => rwa [spaced, List.flatMap_nil, List.append_nil]
  | cons a as ih =>
    have hnext := ih (hx.append (trimmed_of_free a.text_ne_nil fun c => a.text_free) [32])
    rwa [spaced_cons, ← List.singleton_append, ← List.append_assoc x,
      ← List.append_assoc (x ++ [32])]

section Search

variable {needle x : Bytes} (hneedle : tolower 32 ∉ needle.map tolower) (hne : needle ≠ [])
include hneedle hne

/-- A search goes on behind the attributes that have nothing to be found. -/
theorem strcasestr_spaced {before : List Attribute} (hx : strcasestr x needle = none)
    (hbefore : ∀ a ∈ before, strcasestr a.text needle = none) (rest : Bytes) :
    strcasestr (x ++ (spaced before ++ 32 :: rest)) needle = strcasestr rest needle := by
  induction before generalizing x with
  | nil =>
    show strcasestr (x ++ 32 :: rest) needle = _
    rw [strcasestr_field hneedle hne, hx]
    rfl
  | cons a before ih =>
    obtain ⟨ha, hbefore⟩ := List.forall_mem_cons.mp hbefore
    rw [spaced_cons, List.cons_append, List.append_assoc, strcasestr_field hneedle hne, hx]
    exact ih ha hbefore

theorem strcasestr_spaced_none {as : List Attribute} (hx : strcasestr x needle = none)
    (has : ∀ a ∈ as, strcasestr a.text needle = none) :
    strcasestr (x ++ spaced as) needle = none := by
  induction as generalizing x with
  | nil =>
    show strcasestr (x ++ []) needle = none
    rwa [List.append_nil]
  | cons a as ih =>
    obtain ⟨ha, has⟩ := List.forall_mem_cons.mp has
    rw [spaced_cons, strcasestr_field hneedle hne, hx]
    exact ih ha has

end Search

/-! ## Where the search stops -/

/-- The name and the sign, in any case, with what follows. -/
theorem addrKey_cut {t : Bytes} (h : hasPrefixNoCase t ADDR_KEY = true) :
    ∃ w rest, t = w ++ EQUALS :: rest ∧ EQUALS ∉ w ∧ w.length = 4 := by
  have hmap : (t.take 5).map tolower = ascii "addr=" := by
    rw [hasPrefixNoCase, beq_iff_eq] at h
    exact h
  have hname : (t.take 4).map tolower = ascii "addr" := by
    have hfour := congrArg (List.take 4) hmap
    rwa [← List.map_take, List.take_take] at hfour
  obtain ⟨e, he, hlower⟩ : ∃ e, t[4]? = some e ∧ tolower e = EQUALS := by
    have hsign := congrArg (fun s : Bytes => s[4]?) hmap
    simp only [List.getElem?_map, List.getElem?_take] at hsign
    exact Option.map_eq_some_iff.mp hsign
  obtain ⟨hlen, hget⟩ := List.getElem?_eq_some_iff.mp he
  have hdrop : t.drop 4 = EQUALS :: t.drop 5 := by
    rw [List.drop_eq_getElem_cons hlen, hget, (tolower_eq_iff (by decide)).mp hlower]
  refine ⟨t.take 4, t.drop 5, ?_, fun hmem => ?_, List.length_take_of_le (by omega)⟩
  · rw [← hdrop, List.take_append_drop]
  · have hin := List.mem_map_of_mem (f := tolower) hmem
    rw [hname] at hin
    exact absurd hin (by decide)

section Line

variable (l : XforwardLine)

/-- None of these attributes has `ADDR=` in it. -/
def Clean (as : List Attribute) : Prop := ∀ a ∈ as, strcasestr a.text ADDR_KEY = none

theorem cmd_clean : strcasestr l.cmd ADDR_KEY = none := by
  rw [← Option.not_isSome_iff_eq_none]
  intro hfound
  obtain ⟨t, ht⟩ := Option.isSome_iff_exists.mp hfound
  obtain ⟨front, hcmd, hstart, -⟩ := strcasestr_eq_some.mp ht
  have hmem : EQUALS ∈ l.cmd := by
    rw [hcmd]
    exact List.mem_append_right _ (mem_of_hasPrefixNoCase (by decide) (by decide) hstart)
  have hin := List.mem_map_of_mem (f := tolower) hmem
  rw [l.cmd_eq] at hin
  exact absurd hin (by decide)

theorem req_eq (pre post : List Attribute) (b : Attribute)
    (h : l.before ++ l.addr :: l.after = pre ++ b :: post) :
    l.req = l.cmd ++ (spaced pre ++ 32 :: (b.text ++ (spaced post ++ l.eol))) := by
  rw [XforwardLine.req, h, spaced_append, spaced_cons, List.append_assoc, List.cons_append,
    List.append_assoc]

/-- The search stops at `ADDR` itself. -/
theorem find_addr (hclean : Clean l.before) :
    strcasestr l.req ADDR_KEY = some (l.addr.text ++ (spaced l.after ++ l.eol)) := by
  have hname : (l.addr.name ++ [EQUALS]).map tolower = ADDR_KEY.map tolower := by
    rw [List.map_append, show l.addr.name.map tolower = _ from l.addr_named]
    decide
  have hstart : hasPrefixNoCase (l.addr.text ++ (spaced l.after ++ l.eol)) ADDR_KEY = true := by
    have h := hasPrefixNoCase_append hname (l.addr.value ++ (spaced l.after ++ l.eol))
    rwa [List.append_assoc, List.singleton_append, ← List.cons_append, ← List.append_assoc] at h
  rw [req_eq l l.before l.after l.addr rfl,
    strcasestr_spaced (by decide) (by decide) (cmd_clean l) hclean, strcasestr_start hstart]

/-- The search stops in an attribute in front of it. -/
theorem find_other {pre post : List Attribute} {b : Attribute} {t : Bytes}
    (hbefore : l.before = pre ++ b :: post) (hclean : Clean pre)
    (hb : strcasestr b.text ADDR_KEY = some t) :
    strcasestr l.req ADDR_KEY = some (t ++ (spaced (post ++ l.addr :: l.after) ++ l.eol)) := by
  obtain ⟨c, cs, hcs⟩ : ∃ c cs, post ++ l.addr :: l.after = c :: cs :=
    List.exists_cons_of_ne_nil (List.append_ne_nil_of_right_ne_nil _ (List.cons_ne_nil _ _))
  rw [req_eq l pre (post ++ l.addr :: l.after) b (by rw [hbefore, List.append_assoc]; rfl),
    strcasestr_spaced (by decide) (by decide) (cmd_clean l) hclean, hcs, spaced_cons,
    List.cons_append, strcasestr_field (by decide) (by decide), hb]
  rfl

/-- One place or the other. -/
theorem clean_or_first (as : List Attribute) :
    Clean as ∨ ∃ pre b post t, as = pre ++ b :: post ∧ Clean pre ∧
      strcasestr b.text ADDR_KEY = some t := by
  induction as with
  | nil => exact Or.inl (List.forall_mem_nil _)
  | cons a as ih =>
    cases ha : strcasestr a.text ADDR_KEY with
    | some t => exact Or.inr ⟨[], a, as, t, rfl, List.forall_mem_nil _, ha⟩
    | none =>
      rcases ih with hclean | ⟨pre, b, post, t, rfl, hclean, hb⟩
      · exact Or.inl (List.forall_mem_cons.mpr ⟨ha, hclean⟩)
      · exact Or.inr ⟨a :: pre, b, post, t, rfl, List.forall_mem_cons.mpr ⟨ha, hclean⟩, hb⟩

end Line

/-! ## What is taken from there -/

section Taken

variable {v eol : Bytes} {c : Attribute} {cs : List Attribute}

/-- The last attribute of a line. -/
theorem strstrip_value (hv : ∀ c ∈ v, isspace c = false) (heol : ∀ c ∈ eol, isspace c = true) :
    smfCoreStrstrip (v ++ eol) = v := by
  by_cases hempty : v = []
  · have hdrop : eol.dropWhile isspace = [] := List.dropWhile_eq_nil_iff.mpr heol
    rw [hempty, List.nil_append, smfCoreStrstrip, hdrop, if_pos rfl]
  · exact strstrip_trimmed (trimmed_of_free hempty hv) heol

/-- A value and the attributes behind it, without a space in front. -/
def kept (v : Bytes) (c : Attribute) (cs : List Attribute) : Bytes :=
  (if v = [] then c.text else v ++ 32 :: c.text) ++ spaced cs

theorem strstrip_fields (hv : ∀ c ∈ v, isspace c = false) (heol : ∀ c ∈ eol, isspace c = true) :
    smfCoreStrstrip (v ++ (spaced (c :: cs) ++ eol)) = kept v c cs := by
  have hc : Trimmed c.text := trimmed_of_free c.text_ne_nil fun b => c.text_free
  by_cases hempty : v = []
  · have htext := strstrip_eq_self (trimmed_spaced hc cs)
    have hspace := smfCoreStrstrip_space (c.text ++ spaced cs)
      (show ∀ b ∈ [32], isspace b = true from forall_mem_of_all (by decide)) heol
    rw [htext] at hspace
    rw [kept, if_pos hempty, hempty, List.nil_append, spaced_cons]
    exact hspace
  · have hhead : Trimmed (v ++ [32] ++ c.text) := (trimmed_of_free hempty hv).append hc [32]
    have hstrip := strstrip_trimmed (trimmed_spaced hhead cs) heol
    rw [List.append_assoc v, List.singleton_append] at hstrip
    rw [kept, if_neg hempty, spaced_cons, ← List.append_assoc, ← List.cons_append,
      ← List.append_assoc v]
    exact hstrip

theorem length_kept :
    (kept v c cs).length + (if v = [] then 1 else 0) = v.length + (spaced (c :: cs)).length := by
  rw [kept, spaced_cons, List.length_append, List.length_cons, List.length_append]
  split
  · rename_i hempty
    rw [hempty, List.length_nil]
    omega
  · rw [List.length_append, List.length_cons]
    omega

/-- An attribute with the tag in it has a sign besides. -/
theorem length_text_of_tag {a : Attribute} (h : (strcasestr a.text V6_TAG).isSome = true) :
    6 ≤ a.text.length := by
  have hfive : 5 ≤ a.text.length := length_le_of_strcasestr h
  by_contra hlt
  obtain ⟨t, ht⟩ := Option.isSome_iff_exists.mp h
  obtain ⟨front, heq, hstart, -⟩ := strcasestr_eq_some.mp ht
  rw [hasPrefixNoCase, beq_iff_eq] at hstart
  have htlen : 5 ≤ t.length := by
    have := congrArg List.length hstart
    rw [List.length_map, List.length_take, List.length_map] at this
    exact (show V6_TAG.length = 5 from rfl) ▸ this ▸ Nat.min_le_right _ _
  have hsum := congrArg List.length heq
  rw [List.length_append] at hsum
  have hwhole : t.take V6_TAG.length = a.text := by
    have hfront : front = [] := List.eq_nil_of_length_eq_zero (by omega)
    have htake : t.take 5 = t := List.take_of_length_le (by omega)
    rw [show V6_TAG.length = 5 from rfl, htake, heq, hfront, List.nil_append]
  have hmem : EQUALS ∈ a.text := List.mem_append_right _ List.mem_cons_self
  have hin := List.mem_map_of_mem (f := tolower) hmem
  rw [← hwhole, hstart] at hin
  exact absurd hin (by decide)

/-- Where the tag is in the text, the value is long enough for it or something else is. -/
theorem tag_in_kept (h : (strcasestr (kept v c cs) V6_TAG).isSome = true) :
    5 ≤ v.length ∨ v.length + 6 ≤ (kept v c cs).length := by
  by_contra hshort
  rw [not_or, Nat.not_le, Nat.not_le] at hshort
  obtain ⟨hvlen, hklen⟩ := hshort
  have hlen := @length_kept v c cs
  have hone : (if v = [] then 1 else 0) ≤ 1 := by split <;> omega
  have hsum : ∀ a ∈ c :: cs, a.text.length + 1 ≤ (spaced (c :: cs)).length := by
    intro a ha
    obtain ⟨as, bs, hsplit⟩ := List.append_of_mem ha
    rw [hsplit, spaced_append, spaced_cons, List.length_append, List.length_cons,
      List.length_append]
    omega
  have hno : ∀ a ∈ c :: cs, strcasestr a.text V6_TAG = none := by
    intro a ha
    rw [← Option.not_isSome_iff_eq_none]
    intro hin
    have hsix := length_text_of_tag hin
    have hle := hsum a ha
    split at hlen
    · rename_i hempty
      have hzero : v.length = 0 := by rw [hempty, List.length_nil]
      omega
    · omega
  have hv : strcasestr v V6_TAG = none := by
    rw [← Option.not_isSome_iff_eq_none]
    intro hin
    have hfive : 5 ≤ v.length := length_le_of_strcasestr hin
    omega
  obtain ⟨hc, hcs⟩ := List.forall_mem_cons.mp hno
  have hnone : strcasestr (kept v c cs) V6_TAG = none := by
    rw [kept]
    refine strcasestr_spaced_none (by decide) (by decide) ?_ hcs
    split
    · exact hc
    · rw [strcasestr_field (by decide) (by decide), hv, hc]
      rfl
  rw [hnone] at h
  cases h

end Taken

theorem length_forwarded (value : Bytes) : (forwarded value).length ≤ value.length := by
  rw [forwarded]
  split
  · rw [List.length_drop]
    omega
  · exact Nat.le_refl _

theorem recordedAddr_length (x : Bytes) : x.length - 5 ≤ (recordedAddr x).length := by
  rw [recordedAddr]
  split
  · rw [List.length_drop]
  · omega

/-- With something behind it the value does not come out. -/
theorem recordedAddr_ne_of_after {v : Bytes} {c : Attribute} {cs : List Attribute}
    (hv : ∀ b ∈ v, isspace b = false) : recordedAddr (kept v c cs) ≠ forwarded v := by
  intro heq
  have hshort := length_forwarded v
  have hlen := congrArg List.length heq
  rw [recordedAddr] at heq hlen
  split at heq
  · rename_i htag
    rw [if_pos htag, List.length_drop] at hlen
    rcases tag_in_kept htag with hfive | hsix
    · -- the space behind the value is still there
      have hne : v ≠ [] := by
        rintro rfl
        exact absurd hfive (by decide)
      have hdrop : (kept v c cs).drop 5 = v.drop 5 ++ (32 :: c.text ++ spaced cs) := by
        rw [kept, if_neg hne, List.append_assoc, List.drop_append_of_le_length hfive]
      have hmem : (32 : UInt8) ∈ forwarded v := by
        rw [← heq, hdrop]
        exact List.mem_append_right _ (List.mem_append_left _ List.mem_cons_self)
      have hin : (32 : UInt8) ∈ v := by
        rw [forwarded] at hmem
        split at hmem
        · exact List.mem_of_mem_drop hmem
        · exact hmem
      exact absurd (hv 32 hin) (by decide)
    · omega
  · rename_i htag
    rw [if_neg htag] at hlen
    have hkept := @length_kept v c cs
    have hc : 0 < c.text.length := List.length_pos_iff.mpr c.text_ne_nil
    rw [spaced_cons, List.length_cons, List.length_append] at hkept
    split at hkept <;> omega

/-- A last value comes out if the tag is nowhere but at its front. -/
theorem recordedAddr_eq_iff (v : Bytes) :
    recordedAddr v = forwarded v ↔
      ((strcasestr v V6_TAG).isSome = true → hasPrefixNoCase v V6_TAG = true) := by
  rw [recordedAddr, forwarded]
  split
  · rename_i htag
    have hfive : 5 ≤ v.length := length_le_of_strcasestr htag
    split
    · rename_i hstart
      exact iff_of_true rfl fun _ => hstart
    · rename_i hstart
      refine iff_of_false (fun heq => ?_) fun h => hstart (h htag)
      have hlen := congrArg List.length heq
      rw [List.length_drop] at hlen
      omega
  · rename_i htag
    have hstart : ¬ hasPrefixNoCase v V6_TAG = true := fun h =>
      htag (by rw [strcasestr_start h]; rfl)
    rw [if_neg hstart]
    exact iff_of_true rfl fun h => absurd h htag

/-- The text of `ADDR` itself, of which five bytes are cut off again. -/
theorem recordedAddr_text_iff {a : Attribute} (ha : a.IsAddr) :
    recordedAddr a.text = forwarded a.value ↔
      (strcasestr a.value V6_TAG).isSome = true ∧ hasPrefixNoCase a.value V6_TAG = false := by
  have hname : a.name.length = 4 := length_of_map_tolower ha
  have hnone : strcasestr a.name V6_TAG = none := by
    rw [← Option.not_isSome_iff_eq_none]
    intro h
    have hfive : 5 ≤ a.name.length := length_le_of_strcasestr h
    omega
  have htext : strcasestr a.text V6_TAG = strcasestr a.value V6_TAG := by
    rw [Attribute.text, strcasestr_field (by decide) (by decide), hnone]
    rfl
  have hdrop : a.text.drop 5 = a.value := by
    have hcut : (a.name ++ [EQUALS]).length = 5 := by
      rw [List.length_append, hname]
      rfl
    rw [Attribute.text, ← List.singleton_append, ← List.append_assoc, List.drop_left' hcut]
  have hshort := length_forwarded a.value
  rw [recordedAddr, htext, hdrop]
  split
  · rename_i htag
    have hfive : 5 ≤ a.value.length := length_le_of_strcasestr htag
    rw [forwarded]
    split
    · rename_i hstart
      refine iff_of_false (fun heq => ?_) fun h => by rw [hstart] at h; cases h.2
      have hlen := congrArg List.length heq
      rw [List.length_drop] at hlen
      omega
    · rename_i hstart
      exact iff_of_true rfl ⟨htag, Bool.eq_false_iff.mpr hstart⟩
  · rename_i htag
    refine iff_of_false (fun heq => ?_) fun h => htag h.1
    have hlen := congrArg List.length heq
    rw [a.length_text] at hlen
    omega

section Line

variable (l : XforwardLine)

/-- The attribute is the last one, `ADDR=` is nowhere in front of it, and the tag is in
its value at most at the front. -/
def XforwardLine.Straight : Prop :=
  Clean l.before ∧
    ((strcasestr l.addr.value V6_TAG).isSome = true → hasPrefixNoCase l.addr.value V6_TAG = true)

/-- The attribute in front of `ADDR` ends in `ADDR=`, and the tag is in the value behind its
front: the five bytes that are cut off are those that were found too early. -/
def XforwardLine.Cancels : Prop :=
  (∃ pre b t, l.before = pre ++ [b] ∧ Clean pre ∧ strcasestr b.text ADDR_KEY = some t ∧
      t.length = 5) ∧
    (strcasestr l.addr.value V6_TAG).isSome = true ∧ hasPrefixNoCase l.addr.value V6_TAG = false

/-- The session has the value of `ADDR` after the line. -/
def XforwardLine.RecordsAddr {M : Type} (server : Daemon M) (sid : Bytes) (client : Client) :
    Prop :=
  ∃ client' events, smfSmtpdHandleRequest server sid client l.req = (.next client', events) ∧
    client'.session.xforwardAddr = some (forwarded l.addr.value)

section Request

variable {M : Type} (server : Daemon M) (sid : Bytes) (client : Client)

theorem commandOf_xforward : commandOf l.req = .xforward := by
  have hcmd : l.cmd.map tolower = (ascii "xforward").map tolower := by
    rw [l.cmd_eq]
    decide
  rw [XforwardLine.req]
  have hfour := take_four l.cmd_eq (by decide) (spaced (l.before ++ l.addr :: l.after) ++ l.eol)
  rw [commandOf, hasPrefixNoCase_four (by rw [hfour]; decide) (by decide),
    hasPrefixNoCase_four (by rw [hfour]; decide) (by decide),
    hasPrefixNoCase_four (by rw [hfour]; decide) (by decide), hasPrefixNoCase_append hcmd]
  rfl

theorem recordsAddr_iff {w text : Bytes}
    (hfound : strcasestr l.req ADDR_KEY = some (w ++ EQUALS :: text)) (hw : EQUALS ∉ w) :
    l.RecordsAddr server sid client ↔
      recordedAddr (smfCoreStrstrip text) = forwarded l.addr.value := by
  have hsign : strchr (w ++ EQUALS :: text) 61 = some (EQUALS :: text) := strchr_append hw
  have hrun : smfSmtpdHandleRequest server sid client l.req =
      (.next { state := .xfwd
               session := smfSessionSetXforwardAddr client.session (smfCoreStrstrip text) },
        [.reply (smfSmtpdCodeReply server.settings.smtpCodes 250)]) := by
    rw [smfSmtpdHandleRequest_eq, commandOf_xforward]
    show handleXforward server client l.req = _
    rw [handleXforward, show strcasestr l.req (ascii "ADDR=") = _ from hfound, Option.bind_some,
      hsign]
    rfl
  rw [XforwardLine.RecordsAddr, hrun]
  constructor
  · rintro ⟨client', events, heq, haddr⟩
    obtain ⟨hclient, -⟩ := Prod.mk.inj heq
    obtain rfl := Verdict.next.inj hclient
    rw [smfSessionSetXforwardAddr_addr] at haddr
    exact Option.some.inj haddr
  · intro heq
    refine ⟨_, _, rfl, ?_⟩
    rw [smfSessionSetXforwardAddr_addr, heq]

/-- The search has stopped at `ADDR`. -/
theorem recordsAddr_clean (hclean : Clean l.before) :
    l.RecordsAddr server sid client ↔ l.after = [] ∧ l.Straight := by
  have hfound := find_addr l hclean
  rw [Attribute.text, List.append_assoc, List.cons_append] at hfound
  have hname : EQUALS ∉ l.addr.name := fun h => (l.addr.name_free EQUALS h).2.1 rfl
  have hvalue : ∀ c ∈ l.addr.value, isspace c = false := fun c hc => (l.addr.value_free c hc).1
  rw [recordsAddr_iff l server sid client hfound hname]
  cases hafter : l.after with
  | nil =>
    rw [show spaced [] ++ l.eol = l.eol from rfl, strstrip_value hvalue l.eol_space,
      recordedAddr_eq_iff]
    exact ⟨fun h => ⟨rfl, hclean, h⟩, fun h => h.2.2⟩
  | cons c cs =>
    rw [strstrip_fields hvalue l.eol_space]
    exact iff_of_false (recordedAddr_ne_of_after hvalue) fun h => List.cons_ne_nil _ _ h.1

/-- An attribute that has `ADDR=` in it is the last one of those in front only if it is
the first one with it. -/
theorem first_unique {pre pre' post : List Attribute} {b b' : Attribute} {t t' : Bytes}
    (h : pre ++ b :: post = pre' ++ [b']) (hclean' : Clean pre')
    (hb : strcasestr b.text ADDR_KEY = some t) (hb' : strcasestr b'.text ADDR_KEY = some t') :
    post = [] ∧ t = t' := by
  rcases List.eq_nil_or_concat post with rfl | ⟨mid, last, rfl⟩
  · obtain ⟨-, hlast⟩ := List.append_inj' h rfl
    obtain rfl := (List.cons.inj hlast).1
    exact ⟨rfl, Option.some.inj (hb.symm.trans hb')⟩
  · have hsplit : pre ++ b :: (mid ++ [last]) = (pre ++ b :: mid) ++ [last] := by
      rw [List.append_assoc, List.cons_append]
    rw [List.concat_eq_append, hsplit] at h
    obtain ⟨rfl, -⟩ := List.append_inj' h rfl
    have hno := hclean' b (List.mem_append_right _ List.mem_cons_self)
    rw [hb] at hno
    cases hno

theorem length_spaced_pos {as : List Attribute} (h : as ≠ []) : 0 < (spaced as).length := by
  obtain ⟨a, as, rfl⟩ := List.exists_cons_of_ne_nil h
  exact Nat.succ_pos _

/-- More than the text of an attribute is kept where something else is. -/
theorem text_lt_kept {v : Bytes} {a c : Attribute} {post after cs : List Attribute}
    (hcs : post ++ a :: after = c :: cs) (hmore : ¬ (v = [] ∧ post = [] ∧ after = [])) :
    a.text.length < (kept v c cs).length := by
  have hkept := @length_kept v c cs
  rw [← hcs, spaced_append, spaced_cons, List.length_append, List.length_cons,
    List.length_append] at hkept
  split at hkept
  · rename_i hempty
    have hrest : 0 < (spaced post).length + (spaced after).length := by
      by_cases hpost : post = []
      · have hafter := length_spaced_pos fun h => hmore ⟨hempty, hpost, h⟩
        omega
      · have hpos := length_spaced_pos hpost
        omega
    omega
  · rename_i hne
    have hpos := List.length_pos_iff.mpr hne
    omega

/-- The search has stopped in front of it. -/
theorem recordsAddr_other {pre post : List Attribute} {b : Attribute} {t : Bytes}
    (hbefore : l.before = pre ++ b :: post) (hclean : Clean pre)
    (hb : strcasestr b.text ADDR_KEY = some t) :
    l.RecordsAddr server sid client ↔ l.after = [] ∧ l.Cancels := by
  have hfound := find_other l hbefore hclean hb
  obtain ⟨front, htext, hstart, -⟩ := strcasestr_eq_some.mp hb
  obtain ⟨w, v, rfl, hw, hfour⟩ := addrKey_cut hstart
  have hv : ∀ c ∈ v, isspace c = false := fun c hc => b.text_free (by
    rw [htext]
    exact List.mem_append_right _ (List.mem_append_right _ (List.mem_cons_of_mem _ hc)))
  rw [List.append_assoc, List.cons_append] at hfound
  rw [recordsAddr_iff l server sid client hfound hw]
  obtain ⟨c, cs, hcs⟩ : ∃ c cs, post ++ l.addr :: l.after = c :: cs :=
    List.exists_cons_of_ne_nil (List.append_ne_nil_of_right_ne_nil _ (List.cons_ne_nil _ _))
  rw [hcs, strstrip_fields hv l.eol_space]
  by_cases hend : v = [] ∧ post = [] ∧ l.after = []
  · obtain ⟨rfl, rfl, hafter⟩ := hend
    rw [hafter, List.nil_append] at hcs
    obtain ⟨rfl, rfl⟩ := List.cons.inj hcs
    have hkept : kept [] l.addr [] = l.addr.text := by
      rw [kept, if_pos rfl]
      exact List.append_nil _
    have hfive : (w ++ [EQUALS]).length = 5 := by rw [List.length_append, hfour]; rfl
    rw [hkept, recordedAddr_text_iff l.addr_named]
    exact ⟨fun h => ⟨hafter, ⟨pre, b, _, hbefore, hclean, hb, hfive⟩, h⟩, fun h => h.2.2⟩
  · refine iff_of_false (fun heq => ?_) ?_
    · have hlen := congrArg List.length heq
      have hshort := length_forwarded l.addr.value
      have hlong := recordedAddr_length (kept v c cs)
      have hkept := text_lt_kept hcs hend
      have hname : l.addr.name.length = 4 := length_of_map_tolower l.addr_named
      have haddr := l.addr.length_text
      omega
    · rintro ⟨hafter, ⟨pre', b', t', hbefore', hclean', hb', hfive⟩, -⟩
      obtain ⟨hpost, rfl⟩ := first_unique (hbefore.symm.trans hbefore') hclean' hb hb'
      rw [List.length_append, List.length_cons, hfour] at hfive
      exact hend ⟨List.eq_nil_of_length_eq_zero (by omega), hpost, hafter⟩

/-- **The lines whose address comes out.** -/
theorem xforward_iff :
    l.RecordsAddr server sid client ↔ l.after = [] ∧ (l.Straight ∨ l.Cancels) := by
  rcases clean_or_first l.before with hclean | ⟨pre, b, post, t, hbefore, hclean, hb⟩
  · have hno : ¬ l.Cancels := by
      rintro ⟨⟨pre, b, t, hbefore, -, hb, -⟩, -⟩
      have hnone := hclean b (by rw [hbefore]; exact List.mem_append_right _ List.mem_cons_self)
      rw [hb] at hnone
      cases hnone
    rw [recordsAddr_clean l server sid client hclean]
    exact and_congr_right fun _ => (or_iff_left hno).symm
  · have hno : ¬ l.Straight := by
      rintro ⟨hall, -⟩
      have hnone := hall b (by rw [hbefore]; exact List.mem_append_right _ List.mem_cons_self)
      rw [hb] at hnone
      cases hnone
    rw [recordsAddr_other l server sid client hbefore hclean hb]
    exact and_congr_right fun _ => (or_iff_right hno).symm

end Request

end Line

/-- The address and the port of the client. -/
def portLine : XforwardLine where
  cmd := ascii "XFORWARD"
  before := []
  addr :=
    { name := ascii "ADDR"
      value := ascii "192.0.2.1"
      name_free := forall_mem_of_all (by decide)
      value_free := forall_mem_of_all (by decide) }
  after :=
    [{ name := ascii "PORT"
       value := ascii "25"
       name_free := forall_mem_of_all (by decide)
       value_free := forall_mem_of_all (by decide) }]
  eol := CRLF
  cmd_eq := by decide
  before_other := List.forall_mem_nil _
  addr_named := by decide
  after_other := by
    intro a ha
    obtain rfl := List.mem_singleton.mp ha
    decide
  eol_space := forall_mem_of_all (by decide)

/-- The port becomes a part of the address. -/
theorem xforward_port :
    (∃ client' events,
      smfSmtpdHandleRequest Daemon.plain (ascii "1") (.fresh (ascii "1")) portLine.req =
          (.next client', events) ∧
        client'.session.xforwardAddr = some (ascii "192.0.2.1 PORT=25")) ∧
      ¬ portLine.RecordsAddr Daemon.plain (ascii "1") (.fresh (ascii "1")) := by
  constructor
  · exact ⟨_, _, rfl, by decide⟩
  · rw [recordsAddr_clean portLine _ _ _ (List.forall_mem_nil _)]
    exact fun h => List.cons_ne_nil _ _ h.1

end Spmfilter
