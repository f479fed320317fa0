import PartitionTable.Proofs.Command.Faithful

/-! The sector size of a report is settled. Told to start with it, the command finds the same tables at
once and prints the same report; so it does not show from which size it was found out. -/
namespace PartitionTable.Command

namespace Arguments

theorem classify_source {settings last : Settings}
    (known : ∀ source, settings.source = some source → classify source = .source)
    (accepted : readFrom settings arguments = .ok (.info last)) (named : last.source = some source) :
    classify source = .source := by
  fun_induction readFrom settings arguments with
  | case1 settings =>
    cases accepted
    exact known source named
  | case2 | case3 | case5 | case7 | case8 | case9 => cases accepted
  | case4 settings argument rest _ ih | case6 settings argument _ value rest count _ ih => exact ih known accepted
  | case10 settings argument rest reads none ih =>
    refine ih ?_ accepted
    rintro _ ⟨⟩
    exact reads

theorem isDigit_of_decimal (digit : Scan.isDigit 10 c = true) : c.isDigit = true := by
  simp only [Scan.isDigit, Bool.and_eq_true, Bool.or_eq_true, decide_eq_true_eq] at digit
  obtain ⟨plain | ⟨letter, _⟩, small⟩ := digit
  · exact plain
  · have high : 'a'.toNat ≤ c.toNat := letter
    rw [Numeral.digitValue, if_neg (Nat.not_lt.mpr high)] at small
    omega

theorem number?_decimal (small : n < UInt32.size) : number? (Numeral.decimal n) = some (.ofNat n) := by
  have numeral : ∀ c ∈ Numeral.digits 10 n, c.isDigit = true := fun c member =>
    isDigit_of_decimal (Scan.isDigit_digits (by decide) (by decide) n c member)
  have unsigned : ∀ digits, Numeral.digits 10 n ≠ '+' :: digits := by
    intro digits signed
    have plus := numeral '+' (signed ▸ List.mem_cons_self)
    exact absurd plus (by decide)
  have value := Numeral.value_digits (show 2 ≤ 10 by decide) (by decide) n
  rw [Numeral.decimal, number?, String.toList_ofList]
  split
  next digits signed => exact absurd signed (unsigned digits)
  next =>
    rw [value, if_pos ⟨Scan.digits_ne_nil 10 n, List.all_eq_true.mpr numeral, small⟩]

theorem read_told (small : n < UInt32.size) (plain : classify source = .source) :
    read ["-b", Numeral.decimal n, source] =
      .ok (.info { bytesPerSector := some (.ofNat n), source := some source }) := by
  have flag : classify "-b" = .size := rfl
  simp only [read, readFrom, flag, number?_decimal small, plain]

end Arguments

section Run

variable {host : Host η} {image : Image} {source : String} {settings : Settings} {arguments : List String} {system : η}
  {idle : η → Prop} {held : Nat → η → Prop}

/-- A report that was printed stands along a route from its own sector size. -/
theorem info_settles (offers : host.Offers source image idle held) (addressable : image.size ≤ Offset.maximum)
    (isIdle : idle system) (success : (info host system settings source).exitCode = 0) :
    ∃ size offsets, image.Route size 256 offsets size.bytes.toNat ∧
      (∀ extent ∈ offsets.flatMap image.partitions, extent.Placed size.bytes.toNat) ∧
      (info host system settings source).output = printed image offsets size.bytes.toNat := by
  by_cases resolves : ∃ start offsets bytes, settings.Starts start ∧ image.Route start 256 offsets bytes
  · obtain ⟨start, offsets, bytes, starts, route⟩ := resolves
    obtain ⟨size, rfl, settled⟩ := route.settles
    rcases info_along offers addressable isIdle starts route with ⟨placed, _, same⟩ | ⟨_, failure⟩
    · exact ⟨size, offsets, settled, placed, same⟩
    · rw [failure] at success
      cases success
  · obtain ⟨fault, log, _, failed⟩ := info_astray offers addressable isIdle resolves
    rw [failed] at success
    cases success

/-- Told the sector size of a route, the command prints what stands along it. -/
theorem info_told {size : SectorSize} {offsets : List Nat} (offers : host.Offers source image idle held)
    (addressable : image.size ≤ Offset.maximum) (isIdle : idle system)
    (told : settings.bytesPerSector = some size.bytes) (route : image.Route size 256 offsets size.bytes.toNat)
    (placed : ∀ extent ∈ offsets.flatMap image.partitions, extent.Placed size.bytes.toNat) :
    (info host system settings source).exitCode = 0 ∧
      (info host system settings source).output = printed image offsets size.bytes.toNat := by
  have starts : settings.Starts size := by rw [Settings.Starts, told, Option.getD_some]
  rcases info_along offers addressable isIdle starts route with ⟨_, success, same⟩ | ⟨beyond, _⟩
  · exact ⟨success, same⟩
  · exact absurd placed beyond

/-- For any regular file, any host that has it and any run that succeeds: what is printed can be read
back, and it says a sector size. The size can be asked for, and a run that asks for it succeeds and prints
the same. So does every other successful run that says the same size, whichever size it started with. -/
theorem run_settled (offers : host.Offers source image idle held) (addressable : image.size ≤ Offset.maximum)
    (isIdle : idle system) (accepted : Arguments.read arguments = .ok (.info settings))
    (named : settings.source = some source) (success : (run host system arguments).exitCode = 0) :
    ∃ contents, Report.read? (run host system arguments).output = some contents ∧
      Arguments.read ["-b", Numeral.decimal contents.bytesPerSector, source] =
        .ok (.info { bytesPerSector := some (.ofNat contents.bytesPerSector), source := some source }) ∧
      ∀ again line chosen, idle again → Arguments.read line = .ok (.info chosen) → chosen.source = some source →
        let other := run host again line
        (chosen.bytesPerSector = some (.ofNat contents.bytesPerSector) →
          other.exitCode = 0 ∧ other.output = (run host system arguments).output) ∧
        (other.exitCode = 0 → (Report.read? other.output).map (·.bytesPerSector) = some contents.bytesPerSector →
          other.output = (run host system arguments).output) := by
  have plain : Arguments.classify source = .source :=
    Arguments.classify_source (fun _ unnamed => by cases unnamed) accepted named
  rw [run_info accepted named] at success ⊢
  obtain ⟨size, offsets, route, placed, same⟩ := info_settles offers addressable isIdle success
  rw [same]
  refine ⟨_, read?_printed route placed, Arguments.read_told size.bytes.toNat_lt plain, ?_⟩
  intro again line chosen rests reads names
  simp only [run_info reads names, Contents.along, UInt32.ofNat_toNat]
  refine ⟨fun told => info_told offers addressable rests told route placed, fun succeeds equal => ?_⟩
  obtain ⟨other, steps, road, inside, text⟩ := info_settles offers addressable rests succeeds
  rw [text, read?_printed road inside] at equal
  have level : other.bytes = size.bytes := UInt32.toNat_inj.mp (Option.some.inj equal)
  have told : ({ bytesPerSector := some size.bytes } : Settings).bytesPerSector = some other.bytes := by rw [level]
  have first := (info_told offers addressable rests told road inside).2
  rw [level] at told
  have second := (info_told offers addressable rests told route placed).2
  rw [text, ← first, second]

end Run

theorem run_settled_laddered :
    (run Preloaded.host shelf ["disk.raw"]).exitCode = 0 ∧
    (run Preloaded.host shelf ["-v", "-b", "4096", "disk.raw"]).exitCode = 0 ∧
    (run Preloaded.host shelf ["-v", "-b", "4096", "disk.raw"]).output =
      (run Preloaded.host shelf ["disk.raw"]).output := by
  have offers := Preloaded.offers "disk.raw" .laddered
  have addressable : Image.laddered.size ≤ Offset.maximum := by decide
  have plain : Arguments.read ["disk.raw"] = .ok (.info { source := some "disk.raw" }) := rfl
  have exact : Arguments.read ["-v", "-b", "4096", "disk.raw"] =
    .ok (.info { bytesPerSector := some 4096, verbose := true, source := some "disk.raw" }) := rfl
  have route := Image.route_laddered.deepen (show 1 ≤ 256 by decide)
  have placed := route.placed (by decide)
  have ready : shelf = ⟨"disk.raw", .ok (.file .laddered)⟩ := rfl
  have along : (run Preloaded.host shelf ["disk.raw"]).exitCode = 0 ∧
      (run Preloaded.host shelf ["disk.raw"]).output = printed .laddered [0, 4096] SectorSize.of4096.bytes.toNat := by
    have starts : Settings.Starts { source := some "disk.raw" } .of512 := rfl
    rw [run_info plain rfl]
    rcases info_along offers addressable ready starts route with ⟨_, complete⟩ | ⟨beyond, _⟩
    · exact complete
    · exact absurd placed beyond
  obtain ⟨contents, reads, _, settled⟩ := run_settled offers addressable ready plain rfl along.1
  rw [along.2, read?_printed route placed] at reads
  cases reads
  exact ⟨along.1, (settled shelf _ _ ready exact rfl).1 rfl⟩

end PartitionTable.Command
