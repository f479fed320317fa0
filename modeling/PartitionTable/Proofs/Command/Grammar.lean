import PartitionTable.Command.Arguments

/-! The grammar of a command line. A line is spelled by items in any order: flags, sizes with their
values, and one source at most. Reading accepts exactly the lines that are spelled so, and it takes
each apart in one way. Any other line goes wrong at a certain argument, and what it is read as is
settled there. -/
namespace PartitionTable.Command

/-- A decimal numeral of a 32-bit number, with or without a plus sign. -/
def Spells (text : String) (n : Nat) : Prop :=
  ∃ digits, (text.toList = digits ∨ text.toList = '+' :: digits) ∧ digits ≠ [] ∧
    (∀ c ∈ digits, c.isDigit = true) ∧ Numeral.value 10 digits = n ∧ n < UInt32.size

/-- Whatever does not begin with a dash can be a source, and so can a lone dash. -/
def IsSource (name : String) : Prop := name.toList.head? ≠ some '-' ∨ name = "-"

instance (name : String) : Decidable (IsSource name) := inferInstanceAs (Decidable (_ ∨ _))

inductive Item where
  | verbose
  | size (value : String) (count : UInt32)
  | source (name : String)
  deriving DecidableEq, Repr

namespace Item

def words : Item → List String
  | verbose => ["-v"]
  | size value _ => ["-b", value]
  | source name => [name]

def Legal : Item → Prop
  | verbose => True
  | size value count => Spells value count.toNat
  | source name => IsSource name

def count? : Item → Option UInt32
  | size _ count => some count
  | _ => none

def name? : Item → Option String
  | source name => some name
  | _ => none

end Item

structure Line (items : List Item) : Prop where
  legal : ∀ item ∈ items, item.Legal
  single : (items.filterMap Item.name?).length ≤ 1

def spell (items : List Item) : List String := items.flatMap Item.words

def settle (items : List Item) : Settings where
  bytesPerSector := (items.filterMap Item.count?).getLast?
  verbose := decide (.verbose ∈ items)
  source := (items.filterMap Item.name?).head?

def Begins (front : List String) : Prop := ∃ items, Line items ∧ front <+: spell items

/-- Arguments that end the reading behind some items, and what it then comes to. -/
inductive Stop (items : List Item) : List String → Except Refusal Request → Prop where
  | help : Stop items ["-h"] (.ok .help)
  | version : Stop items ["-V"] (.ok .version)
  | value : (∀ count, ¬ Spells value count) → Stop items ["-b", value] (.error (.unsupportedValue value))
  | flag : ¬ IsSource flag → flag ∉ ["-h", "-V", "-v", "-b"] → Stop items [flag] (.error (.invalidFlag flag))
  | source : IsSource name → items.filterMap Item.name? ≠ [] → Stop items [name] (.error (.secondSource name))

/-- What a list of arguments is read as: they are a line, or something stops the reading whatever comes
behind it, or the last flag lacks its value. -/
inductive Reads : List String → Except Refusal Request → Prop where
  | line : Line items → Reads (spell items) (.ok (.info (settle items)))
  | stopped : Line items → Stop items stop result → (later : List String) →
    Reads (spell items ++ stop ++ later) result
  | unfinished : Line items → Reads (spell items ++ ["-b"]) (.error .missingValue)

section Words

open Arguments

def Signed (text digits : List Char) : Prop := text = '+' :: digits ∨ text = digits ∧ ∀ more, text ≠ '+' :: more

theorem spells_iff (signed : Signed text.toList digits) : Spells text n ↔
    digits ≠ [] ∧ digits.all (·.isDigit) = true ∧ Numeral.value 10 digits = n ∧ n < UInt32.size := by
  have plus : '+'.isDigit ≠ true := by decide
  rw [List.all_eq_true]
  constructor
  · rintro ⟨figures, form, some, numeral, value⟩
    have same : figures = digits := by
      rcases signed with signed | ⟨rfl, unsigned⟩ <;> rcases form with form | form
      · exact absurd (numeral '+' (form ▸ signed ▸ List.mem_cons_self)) plus
      · exact List.tail_eq_of_cons_eq (form.symm.trans signed)
      · exact form.symm
      · exact absurd form (unsigned figures)
    exact same ▸ ⟨some, numeral, value⟩
  · rintro ⟨some, numeral, value⟩
    exact ⟨digits, signed.symm.imp_left And.left, some, numeral, value⟩

theorem number?_digits (text : String) : ∃ digits, Signed text.toList digits ∧ number? text =
    if digits ≠ [] ∧ digits.all (·.isDigit) ∧ Numeral.value 10 digits < UInt32.size
    then some (.ofNat (Numeral.value 10 digits)) else none := by
  rw [number?]
  split
  next digits signed => exact ⟨digits, .inl signed, rfl⟩
  next unsigned => exact ⟨text.toList, .inr ⟨rfl, unsigned⟩, rfl⟩

theorem number?_eq_some : number? text = some n ↔ Spells text n.toNat := by
  obtain ⟨digits, signed, same⟩ := number?_digits text
  rw [same, spells_iff signed]
  constructor
  · intro read
    obtain ⟨⟨filled, numeral, small⟩, ⟨⟩⟩ := Option.ite_none_right_eq_some.mp read
    rw [UInt32.toNat_ofNat_of_lt' small]
    exact ⟨filled, numeral, rfl, small⟩
  · rintro ⟨filled, numeral, value, small⟩
    rw [← value] at small
    rw [if_pos ⟨filled, numeral, small⟩, value, UInt32.ofNat_toNat]

theorem number?_eq_none : number? text = none ↔ ∀ count, ¬ Spells text count := by
  rw [Option.eq_none_iff_forall_ne_some]
  constructor
  · intro none count spells
    obtain ⟨_, _, _, _, _, small⟩ := id spells
    refine none (.ofNat count) (number?_eq_some.mpr ?_)
    rwa [UInt32.toNat_ofNat_of_lt' small]
  · exact fun none count read => none _ (number?_eq_some.mp read)

def Fits (argument : String) : Word → Prop
  | .help => argument = "-h"
  | .version => argument = "-V"
  | .verbose => argument = "-v"
  | .size => argument = "-b"
  | .unknown => ¬ IsSource argument ∧ argument ∉ ["-h", "-V", "-v", "-b"]
  | .source => IsSource argument

theorem fits_classify (argument : String) : Fits argument (classify argument) := by
  fun_cases classify argument with
  | case1 spelled | case2 spelled | case3 spelled | case4 spelled => exact String.toList_inj.mp spelled
  | case5 first more help version verbose size spelled =>
    constructor
    · rintro (other | rfl)
      · exact other (congrArg List.head? spelled)
      · cases spelled
    · intro known
      simp only [List.mem_cons, List.not_mem_nil, or_false] at known
      rcases known with rfl | rfl | rfl | rfl <;> cases spelled
      · exact help rfl rfl
      · exact version rfl rfl
      · exact verbose rfl rfl
      · exact size rfl rfl
  | case6 help version verbose size longer =>
    by_cases dash : argument.toList.head? = some '-'
    · obtain ⟨_ | ⟨first, more⟩, spelled⟩ := List.head?_eq_some_iff.mp dash
      · exact .inr (String.toList_inj.mp spelled)
      · exact absurd spelled (longer first more)
    · exact .inl dash

theorem fits_of_classify (reads : classify argument = word) : Fits argument word :=
  reads ▸ fits_classify argument

theorem Fits.classify_eq {word : Word} (fits : Fits argument word) : classify argument = word := by
  cases word with
  | help | version | verbose | size =>
    cases fits
    rfl
  | unknown =>
    obtain ⟨other, unknown⟩ := fits
    rcases same : classify argument <;> have own := fits_of_classify same
    case unknown => rfl
    case source => exact absurd own other
    all_goals
      cases own
      exact absurd unknown (by decide)
  | source =>
    have plain : IsSource argument := fits
    rcases same : classify argument <;> have own := fits_of_classify same
    case source => rfl
    case unknown => exact absurd plain own.1
    all_goals
      cases own
      exact absurd plain (by decide)

end Words

namespace Line

variable {items others : List Item}

theorem nil : Line [] := ⟨nofun, Nat.zero_le 1⟩

theorem concat (line : Line items) {item : Item} (legal : item.Legal)
    (room : item.name? = none ∨ items.filterMap Item.name? = []) : Line (items ++ [item]) := by
  refine ⟨List.forall_mem_append.mpr ⟨line.legal, List.forall_mem_singleton.mpr legal⟩, ?_⟩
  rw [List.filterMap_append]
  rcases room with none | none
  · rw [List.filterMap_cons_none none, List.filterMap_nil, List.append_nil]
    exact line.single
  · rw [none, List.nil_append]
    exact List.length_filterMap_le _ _

theorem front (line : Line (items ++ others)) : Line items := by
  refine ⟨(List.forall_mem_append.mp line.legal).1, ?_⟩
  have single := line.single
  rw [List.filterMap_append, List.length_append] at single
  omega

theorem reorder (line : Line items) (perm : items.Perm others) : Line others where
  legal item member := line.legal item (perm.mem_iff.mpr member)
  single := (perm.filterMap Item.name?).length_eq ▸ line.single

end Line

section Settle

variable (items : List Item)

theorem settle_verbose : settle (items ++ [.verbose]) = { settle items with verbose := true } := by
  simp [settle, Item.count?, Item.name?]

theorem settle_size (value : String) (count : UInt32) :
    settle (items ++ [.size value count]) = { settle items with bytesPerSector := some count } := by
  simp [settle, Item.count?, Item.name?]

variable {items}

theorem settle_source (none : items.filterMap Item.name? = []) (name : String) :
    settle (items ++ [.source name]) = { settle items with source := some name } := by
  simp [settle, Item.count?, Item.name?, none]

theorem source_eq_none : (settle items).source = none ↔ items.filterMap Item.name? = [] := List.head?_eq_none_iff

end Settle

section Reading

open Arguments

variable {items others : List Item} {rest : List String}

@[simp] theorem spell_append (items others : List Item) : spell (items ++ others) = spell items ++ spell others :=
  List.flatMap_append

@[simp] theorem spell_singleton (item : Item) : spell [item] = item.words := List.append_nil _

/-- An item of a line is read on top of what those before it say. -/
theorem readFrom_item {item : Item} (line : Line (items ++ [item])) (rest : List String) :
    readFrom (settle items) (item.words ++ rest) = readFrom (settle (items ++ [item])) rest := by
  have legal := line.legal item (List.mem_append_right _ List.mem_cons_self)
  cases item with
  | verbose =>
    have flag : Fits "-v" .verbose := rfl
    rw [settle_verbose, Item.words, List.singleton_append, readFrom.eq_def (settle items)]
    simp only [flag.classify_eq]
  | size value count =>
    have flag : Fits "-b" .size := rfl
    rw [settle_size, Item.words, List.cons_append, List.singleton_append, readFrom.eq_def (settle items)]
    simp only [flag.classify_eq, number?_eq_some.mpr legal]
  | source name =>
    have none : items.filterMap Item.name? = [] := by
      have single := line.single
      rw [List.filterMap_append, List.length_append] at single
      exact List.length_eq_zero_iff.mp (Nat.le_zero.mp (Nat.le_of_add_le_add_right single))
    have plain : Fits name .source := legal
    rw [settle_source none, Item.words, List.singleton_append, readFrom.eq_def (settle items)]
    simp only [plain.classify_eq, source_eq_none.mpr none]

theorem readFrom_spell (line : Line (items ++ others)) (rest : List String) :
    readFrom (settle items) (spell others ++ rest) = readFrom (settle (items ++ others)) rest := by
  induction others generalizing items with
  | nil =>
    rw [List.append_nil]
    rfl
  | cons item others ih =>
    rw [List.append_cons] at line ⊢
    rw [← ih line, ← readFrom_item line.front, ← List.append_assoc, ← spell_singleton, ← spell_append]
    rfl

theorem read_spell (line : Line items) (rest : List String) :
    read (spell items ++ rest) = readFrom (settle items) rest :=
  @readFrom_spell [] items line rest

theorem Stop.readFrom (stop : Stop items front result) (later : List String) :
    Arguments.readFrom (settle items) (front ++ later) = result := by
  rw [Arguments.readFrom.eq_def]
  cases stop with
  | help | version => rfl
  | value wrong =>
    have flag : Fits "-b" .size := rfl
    simp only [List.cons_append, flag.classify_eq, number?_eq_none.mpr wrong]
  | flag other unknown =>
    have flag : Fits _ .unknown := ⟨other, unknown⟩
    simp only [List.cons_append, flag.classify_eq]
  | source plain taken =>
    have plain : Fits _ .source := plain
    obtain ⟨first, named⟩ := Option.ne_none_iff_exists'.mp (mt source_eq_none.mp taken)
    simp only [List.cons_append, plain.classify_eq, named]

theorem Reads.sound (reads : Reads arguments result) : read arguments = result := by
  cases reads with
  | @line items line =>
    rw [← List.append_nil (spell items), read_spell line]
    rfl
  | stopped line stop later =>
    rw [List.append_assoc, read_spell line, stop.readFrom]
  | unfinished line =>
    rw [read_spell line]
    rfl

/-- Whatever stands behind a line goes on with it, or it stops the reading. -/
theorem readFrom_reads (line : Line items) (arguments : List String) :
    Reads (spell items ++ arguments) (readFrom (settle items) arguments) := by
  generalize same : settle items = settings
  fun_induction readFrom settings arguments generalizing items with
  | case1 settings =>
    rw [List.append_nil, ← same]
    exact .line line
  | case2 settings argument rest reads =>
    obtain rfl : argument = "-h" := fits_of_classify reads
    rw [List.append_cons]
    exact .stopped line .help rest
  | case3 settings argument rest reads =>
    obtain rfl : argument = "-V" := fits_of_classify reads
    rw [List.append_cons]
    exact .stopped line .version rest
  | case4 settings argument rest reads ih =>
    obtain rfl : argument = "-v" := fits_of_classify reads
    have legal : Item.verbose.Legal := trivial
    have longer := ih (line.concat legal (.inl rfl)) (by rw [settle_verbose, same])
    rwa [spell_append, spell_singleton, Item.words, ← List.append_cons] at longer
  | case5 settings argument reads =>
    obtain rfl : argument = "-b" := fits_of_classify reads
    exact .unfinished line
  | case6 settings argument reads value rest count number ih =>
    obtain rfl : argument = "-b" := fits_of_classify reads
    have legal : (Item.size value count).Legal := number?_eq_some.mp number
    have longer := ih (line.concat legal (.inl rfl)) (by rw [settle_size, same])
    rwa [spell_append, spell_singleton, Item.words, List.append_assoc] at longer
  | case7 settings argument reads value rest wrong =>
    obtain rfl : argument = "-b" := fits_of_classify reads
    have stopped := Reads.stopped line (.value (number?_eq_none.mp wrong)) rest
    rwa [List.append_assoc] at stopped
  | case8 settings argument rest reads =>
    obtain ⟨other, unknown⟩ : Fits argument .unknown := fits_of_classify reads
    rw [List.append_cons]
    exact .stopped line (.flag other unknown) rest
  | case9 settings argument rest reads first named =>
    have plain : IsSource argument := fits_of_classify reads
    have taken : items.filterMap Item.name? ≠ [] := by
      rw [← same] at named
      exact fun none => nomatch (source_eq_none.mpr none).symm.trans named
    rw [List.append_cons]
    exact .stopped line (.source plain taken) rest
  | case10 settings argument rest reads unnamed ih =>
    have legal : (Item.source argument).Legal := fits_of_classify reads
    have none := source_eq_none.mp (same ▸ unnamed)
    have longer := ih (line.concat legal (.inr none)) (by rw [settle_source none, same])
    rwa [spell_append, spell_singleton, Item.words, ← List.append_cons] at longer

theorem read_iff : read arguments = result ↔ Reads arguments result :=
  ⟨fun same => same ▸ readFrom_reads .nil arguments, Reads.sound⟩

theorem Item.words_ne_nil (item : Item) : item.words ≠ [] := by cases item <;> exact List.cons_ne_nil _ _

/-- The first words of a line belong to one item only. -/
theorem Item.words_unique {item other : Item} (legal : item.Legal) (lawful : other.Legal)
    (same : item.words ++ rest = other.words ++ later) : item = other ∧ rest = later := by
  cases item <;> cases other <;> obtain ⟨word, more⟩ := List.cons.inj same
  case verbose.verbose => exact ⟨rfl, more⟩
  case verbose.size => exact absurd word (by decide)
  case verbose.source => exact absurd (word ▸ lawful) (show ¬ IsSource "-v" by decide)
  case size.verbose => exact absurd word (by decide)
  case size.size =>
    obtain ⟨rfl, rfl⟩ := List.cons.inj more
    cases (number?_eq_some.mpr legal).symm.trans (number?_eq_some.mpr lawful)
    exact ⟨rfl, rfl⟩
  case size.source => exact absurd (word ▸ lawful) (show ¬ IsSource "-b" by decide)
  case source.verbose => exact absurd (word ▸ legal) (show ¬ IsSource "-v" by decide)
  case source.size => exact absurd (word ▸ legal) (show ¬ IsSource "-b" by decide)
  case source.source => exact ⟨word ▸ rfl, more⟩

theorem Line.unique (line : Line items) (other : Line others) (same : spell items = spell others) :
    items = others := by
  replace line := line.legal
  replace other := other.legal
  induction items generalizing others with
  | nil =>
    cases others with
    | nil => rfl
    | cons item others => exact absurd (List.append_eq_nil_iff.mp same.symm).1 item.words_ne_nil
  | cons item items ih =>
    cases others with
    | nil => exact absurd (List.append_eq_nil_iff.mp same).1 item.words_ne_nil
    | cons next others =>
      obtain ⟨legal, items'⟩ := List.forall_mem_cons.mp line
      obtain ⟨lawful, others'⟩ := List.forall_mem_cons.mp other
      obtain ⟨rfl, rest⟩ := Item.words_unique legal lawful same
      rw [ih rest items' others']

theorem Line.settle_eq (line : Line items) (perm : items.Perm others)
    (order : items.filterMap Item.count? = others.filterMap Item.count?) : settle items = settle others := by
  have names : items.filterMap Item.name? = others.filterMap Item.name? := by
    have perm := perm.filterMap Item.name?
    rcases named : items.filterMap Item.name? with _ | ⟨name, _ | ⟨second, names⟩⟩
    · rw [named] at perm
      rw [List.nil_perm.mp perm]
    · rw [named] at perm
      rw [List.singleton_perm.mp perm]
    · have single := line.single
      rw [named] at single
      exact absurd single (by simp)
  simp only [settle, order, names, perm.mem_iff]

end Reading

section Position

variable {items : List Item} {front : List String}

theorem Begins.shorten (begins : Begins longer) (short : front <+: longer) : Begins front := by
  obtain ⟨items, line, inside⟩ := begins
  exact ⟨items, line, short.trans inside⟩

theorem Line.begins (line : Line items) : Begins (spell items ++ ["-b"]) := by
  have legal : (Item.size "0" 0).Legal := number?_eq_some.mp rfl
  refine ⟨items ++ [.size "0" 0], line.concat legal (.inl rfl), ["0"], ?_⟩
  rw [spell_append, spell_singleton, List.append_assoc]
  rfl

theorem Stop.begins (stop : Stop items front result) (line : Line items) :
    ∃ start word, spell items ++ front = start ++ [word] ∧ Begins start := by
  have first := line.begins.shorten (List.prefix_append (spell items) _)
  cases stop with
  | help | version | flag | source => exact ⟨spell items, _, rfl, first⟩
  | @value value => exact ⟨spell items ++ ["-b"], value, by rw [List.append_assoc]; rfl, line.begins⟩

theorem Stop.not_begins (stop : Stop items front result) (line : Line items) :
    ¬ Begins (spell items ++ front) := by
  rintro ⟨whole, other, later, same⟩
  have accepted := (Reads.line other).sound
  rw [← same, (Reads.stopped line stop later).sound] at accepted
  subst accepted
  cases stop

/-- The reading is stopped where the arguments cease to be those of a line. -/
theorem Stop.begins_iff (stop : Stop items front result) (line : Line items)
    (inside : start <+: spell items ++ front ++ later) :
    Begins start ↔ start.length < (spell items ++ front).length := by
  have upto : spell items ++ front <+: spell items ++ front ++ later := List.prefix_append _ later
  constructor
  · intro begins
    refine Nat.lt_of_not_le fun long => stop.not_begins line ?_
    exact begins.shorten (List.prefix_of_prefix_length_le upto inside long)
  · intro short
    have earlier := List.prefix_of_prefix_length_le inside upto (Nat.le_of_lt short)
    obtain ⟨before, word, same, begins⟩ := stop.begins line
    rw [same] at earlier short
    rcases List.prefix_concat_iff.mp earlier with rfl | shorter
    · exact absurd short (Nat.lt_irrefl _)
    · exact begins.shorten shorter

end Position

/-- Reading accepts the lines of the grammar and no others. It takes each apart in one way, so what stands
behind the flag of a size is its value and nothing else; and only the pairs have to keep their order. Any
other arguments are given up at the first of them with which no line can go on, whatever follows it. -/
theorem read_grammar :
    (∀ arguments settings, Arguments.read arguments = .ok (.info settings) ↔
      ∃ items, Line items ∧ spell items = arguments ∧ settle items = settings) ∧
    (∀ items others, Line items → Line others → spell items = spell others → items = others) ∧
    (∀ items others, Line items → items.Perm others →
      items.filterMap Item.count? = others.filterMap Item.count? →
      Line others ∧ Arguments.read (spell others) = Arguments.read (spell items)) ∧
    ∀ arguments, (¬ ∃ items, Line items ∧ spell items = arguments) →
      (∃ items, Line items ∧ arguments = spell items ++ ["-b"] ∧ Begins arguments ∧
        Arguments.read arguments = .error .missingValue) ∨
      ∃ items stop later, Line items ∧ arguments = spell items ++ stop ++ later ∧
        Stop items stop (Arguments.read arguments) ∧
        (∀ front, front <+: arguments → (Begins front ↔ front.length < (spell items ++ stop).length)) ∧
        ∀ others, Arguments.read (spell items ++ stop ++ others) = Arguments.read arguments := by
  refine ⟨fun arguments settings => ?_, fun _ _ line other same => line.unique other same, ?_, ?_⟩
  · rw [read_iff]
    constructor
    · rintro (⟨line⟩ | ⟨line, stop⟩)
      · exact ⟨_, line, rfl, rfl⟩
      · cases stop
    · rintro ⟨items, line, rfl, rfl⟩
      exact .line line
  · intro items others line perm order
    refine ⟨line.reorder perm, ?_⟩
    rw [(Reads.line line).sound, (Reads.line (line.reorder perm)).sound, line.settle_eq perm order]
  · intro arguments other
    have reads := read_iff.mp (Eq.refl (Arguments.read arguments))
    generalize Arguments.read arguments = result at reads ⊢
    cases reads with
    | @line items line => exact absurd ⟨items, line, rfl⟩ other
    | @unfinished items line => exact .inl ⟨items, line, rfl, line.begins, rfl⟩
    | @stopped items front _ line stop later =>
      exact .inr ⟨items, front, later, line, rfl, stop, fun _ inside => stop.begins_iff line inside,
        fun others => (Reads.stopped line stop others).sound⟩

/-- Two pairs around a lone dash, told in another order, and a line that is given up at a value. -/
theorem read_grammar_shuffled :
    let items : List Item := [.verbose, .size "+0512" 512, .source "-", .size "4096" 4096]
    let others : List Item := [.size "+0512" 512, .size "4096" 4096, .verbose, .source "-"]
    let arguments := ["-v", "-b", "-h", "disk.raw"]
    Line items ∧ items.Perm others ∧ items.filterMap Item.count? = others.filterMap Item.count? ∧
      Arguments.read ["-b", "+0512", "-b", "4096", "-v", "-"] =
        .ok (.info { bytesPerSector := some 4096, verbose := true, source := some "-" }) ∧
      (¬ ∃ items, Line items ∧ spell items = arguments) ∧
      ∃ front later, arguments = front ++ later ∧
        (∀ start, start <+: arguments → (Begins start ↔ start.length < front.length)) ∧
        ∀ others, Arguments.read (front ++ others) = .error (.unsupportedValue "-h") := by
  intro items others arguments
  obtain ⟨accepted, -, reordered, astray⟩ := read_grammar
  have plus : (Item.size "+0512" 512).Legal := number?_eq_some.mp rfl
  have plain : (Item.size "4096" 4096).Legal := number?_eq_some.mp rfl
  have dash : (Item.source "-").Legal := .inr rfl
  have flag : Item.verbose.Legal := trivial
  have line : Line items :=
    (((Line.nil.concat flag (.inl rfl)).concat plus (.inl rfl)).concat dash (.inr rfl)).concat plain (.inl rfl)
  have perm : items.Perm others := by decide
  have reads : Arguments.read arguments = .error (.unsupportedValue "-h") := rfl
  have other : ¬ ∃ items, Line items ∧ spell items = arguments := by
    rintro ⟨items, line, same⟩
    cases reads.symm.trans ((accepted arguments _).mpr ⟨items, line, same, rfl⟩)
  refine ⟨line, perm, rfl, ?_, other, ?_⟩
  · exact (reordered items others line perm rfl).2.trans ((accepted _ _).mpr ⟨items, line, rfl, rfl⟩)
  · rcases astray arguments other with ⟨_, _, _, _, missing⟩ | ⟨_, _, later, _, same, _, first, same'⟩
    · cases reads.symm.trans missing
    · exact ⟨_, later, same, first, fun others => (same' others).trans reads⟩

end PartitionTable.Command
