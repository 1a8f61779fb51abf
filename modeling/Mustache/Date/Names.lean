/-!
This module contains the names of days, months and halves of the day in several languages.
-/

namespace Mustache

/--
The names in which dates are written. The weeks start on Sunday.
-/
structure DateNames where
  shortDays : List String
  longDays : List String
  shortMonths : List String
  longMonths : List String
  halves : String × String
deriving DecidableEq, Repr

namespace DateNames

def english : DateNames where
  shortDays := ["Sun", "Mon", "Tue", "Wed", "Thu", "Fri", "Sat"]
  longDays := ["Sunday", "Monday", "Tuesday", "Wednesday", "Thursday", "Friday", "Saturday"]
  shortMonths := ["Jan", "Feb", "Mar", "Apr", "May", "Jun", "Jul", "Aug", "Sep", "Oct", "Nov", "Dec"]
  longMonths := ["January", "February", "March", "April", "May", "June", "July", "August", "September",
    "October", "November", "December"]
  halves := ("AM", "PM")

def britishEnglish : DateNames where
  shortDays := ["Sun", "Mon", "Tue", "Wed", "Thu", "Fri", "Sat"]
  longDays := ["Sunday", "Monday", "Tuesday", "Wednesday", "Thursday", "Friday", "Saturday"]
  shortMonths := ["Jan", "Feb", "Mar", "Apr", "May", "Jun", "Jul", "Aug", "Sep", "Oct", "Nov", "Dec"]
  longMonths := ["January", "February", "March", "April", "May", "June", "July", "August", "September",
    "October", "November", "December"]
  halves := ("am", "pm")

def german : DateNames where
  shortDays := ["So", "Mo", "Di", "Mi", "Do", "Fr", "Sa"]
  longDays := ["Sonntag", "Montag", "Dienstag", "Mittwoch", "Donnerstag", "Freitag", "Samstag"]
  shortMonths := ["Jan", "Feb", "Mär", "Apr", "Mai", "Jun", "Jul", "Aug", "Sep", "Okt", "Nov", "Dez"]
  longMonths := ["Januar", "Februar", "März", "April", "Mai", "Juni", "Juli", "August", "September",
    "Oktober", "November", "Dezember"]
  halves := ("", "")

def austrianGerman : DateNames where
  shortDays := ["So", "Mo", "Di", "Mi", "Do", "Fr", "Sa"]
  longDays := ["Sonntag", "Montag", "Dienstag", "Mittwoch", "Donnerstag", "Freitag", "Samstag"]
  shortMonths := ["Jän", "Feb", "Mär", "Apr", "Mai", "Jun", "Jul", "Aug", "Sep", "Okt", "Nov", "Dez"]
  longMonths := ["Jänner", "Februar", "März", "April", "Mai", "Juni", "Juli", "August", "September",
    "Oktober", "November", "Dezember"]
  halves := ("", "")

def french : DateNames where
  shortDays := ["dim.", "lun.", "mar.", "mer.", "jeu.", "ven.", "sam."]
  longDays := ["dimanche", "lundi", "mardi", "mercredi", "jeudi", "vendredi", "samedi"]
  shortMonths := ["janv.", "févr.", "mars", "avril", "mai", "juin", "juil.", "août", "sept.", "oct.",
    "nov.", "déc."]
  longMonths := ["janvier", "février", "mars", "avril", "mai", "juin", "juillet", "août", "septembre",
    "octobre", "novembre", "décembre"]
  halves := ("", "")

def canadianFrench : DateNames where
  shortDays := ["dim", "lun", "mar", "mer", "jeu", "ven", "sam"]
  longDays := ["dimanche", "lundi", "mardi", "mercredi", "jeudi", "vendredi", "samedi"]
  shortMonths := ["jan", "fév", "mar", "avr", "mai", "jun", "jui", "aoû", "sep", "oct", "nov", "déc"]
  longMonths := ["janvier", "février", "mars", "avril", "mai", "juin", "juillet", "août", "septembre",
    "octobre", "novembre", "décembre"]
  halves := ("", "")

def spanish : DateNames where
  shortDays := ["dom", "lun", "mar", "mié", "jue", "vie", "sáb"]
  longDays := ["domingo", "lunes", "martes", "miércoles", "jueves", "viernes", "sábado"]
  shortMonths := ["ene", "feb", "mar", "abr", "may", "jun", "jul", "ago", "sep", "oct", "nov", "dic"]
  longMonths := ["enero", "febrero", "marzo", "abril", "mayo", "junio", "julio", "agosto", "septiembre",
    "octubre", "noviembre", "diciembre"]
  halves := ("", "")

def italian : DateNames where
  shortDays := ["dom", "lun", "mar", "mer", "gio", "ven", "sab"]
  longDays := ["domenica", "lunedì", "martedì", "mercoledì", "giovedì", "venerdì", "sabato"]
  shortMonths := ["gen", "feb", "mar", "apr", "mag", "giu", "lug", "ago", "set", "ott", "nov", "dic"]
  longMonths := ["gennaio", "febbraio", "marzo", "aprile", "maggio", "giugno", "luglio", "agosto",
    "settembre", "ottobre", "novembre", "dicembre"]
  halves := ("", "")

def japanese : DateNames where
  shortDays := ["日", "月", "火", "水", "木", "金", "土"]
  longDays := ["日曜日", "月曜日", "火曜日", "水曜日", "木曜日", "金曜日", "土曜日"]
  shortMonths := [" 1月", " 2月", " 3月", " 4月", " 5月", " 6月", " 7月", " 8月", " 9月", "10月", "11月", "12月"]
  longMonths := ["1月", "2月", "3月", "4月", "5月", "6月", "7月", "8月", "9月", "10月", "11月", "12月"]
  halves := ("午前", "午後")

def dutch : DateNames where
  shortDays := ["zo", "ma", "di", "wo", "do", "vr", "za"]
  longDays := ["zondag", "maandag", "dinsdag", "woensdag", "donderdag", "vrijdag", "zaterdag"]
  shortMonths := ["jan", "feb", "mrt", "apr", "mei", "jun", "jul", "aug", "sep", "okt", "nov", "dec"]
  longMonths := ["januari", "februari", "maart", "april", "mei", "juni", "juli", "augustus",
    "september", "oktober", "november", "december"]
  halves := ("", "")

def portuguese : DateNames where
  shortDays := ["dom", "seg", "ter", "qua", "qui", "sex", "sáb"]
  longDays := ["domingo", "segunda", "terça", "quarta", "quinta", "sexta", "sábado"]
  shortMonths := ["jan", "fev", "mar", "abr", "mai", "jun", "jul", "ago", "set", "out", "nov", "dez"]
  longMonths := ["janeiro", "fevereiro", "março", "abril", "maio", "junho", "julho", "agosto",
    "setembro", "outubro", "novembro", "dezembro"]
  halves := ("", "")

def chinese : DateNames where
  shortDays := ["日", "一", "二", "三", "四", "五", "六"]
  longDays := ["星期日", "星期一", "星期二", "星期三", "星期四", "星期五", "星期六"]
  shortMonths := ["1月", "2月", "3月", "4月", "5月", "6月", "7月", "8月", "9月", "10月", "11月", "12月"]
  longMonths := ["一月", "二月", "三月", "四月", "五月", "六月", "七月", "八月", "九月", "十月", "十一月", "十二月"]
  halves := ("上午", "下午")

def finnish : DateNames where
  shortDays := ["su", "ma", "ti", "ke", "to", "pe", "la"]
  longDays := ["sunnuntai", "maanantai", "tiistai", "keskiviikko", "torstai", "perjantai", "lauantai"]
  shortMonths := ["tammi", "helmi", "maalis", "huhti", "touko", "kesä", "heinä", "elo", "syys", "loka",
    "marras", "joulu"]
  longMonths := ["tammikuu", "helmikuu", "maaliskuu", "huhtikuu", "toukokuu", "kesäkuu", "heinäkuu",
    "elokuu", "syyskuu", "lokakuu", "marraskuu", "joulukuu"]
  halves := ("", "")

def russian : DateNames where
  shortDays := ["Вс", "Пн", "Вт", "Ср", "Чт", "Пт", "Сб"]
  longDays := ["Воскресенье", "Понедельник", "Вторник", "Среда", "Четверг", "Пятница", "Суббота"]
  shortMonths := ["янв", "фев", "мар", "апр", "мая", "июн", "июл", "авг", "сен", "окт", "ноя", "дек"]
  longMonths := ["января", "февраля", "марта", "апреля", "мая", "июня", "июля", "августа", "сентября",
    "октября", "ноября", "декабря"]
  halves := ("", "")

def serbian : DateNames where
  shortDays := ["нед", "пон", "уто", "сре", "чет", "пет", "суб"]
  longDays := ["недеља", "понедељак", "уторак", "среда", "четвртак", "петак", "субота"]
  shortMonths := ["јан", "феб", "мар", "апр", "мај", "јун", "јул", "авг", "сеп", "окт", "нов", "дец"]
  longMonths := ["јануар", "фебруар", "март", "април", "мај", "јун", "јул", "август", "септембар",
    "октобар", "новембар", "децембар"]
  halves := ("", "")

def serbianLatin : DateNames where
  shortDays := ["ned", "pon", "uto", "sre", "čet", "pet", "sub"]
  longDays := ["nedelja", "ponedeljak", "utorak", "sreda", "četvrtak", "petak", "subota"]
  shortMonths := ["jan", "feb", "mar", "apr", "maj", "jun", "jul", "avg", "sep", "okt", "nov", "dec"]
  longMonths := ["januar", "februar", "mart", "april", "maj", "jun", "jul", "avgust", "septembar",
    "oktobar", "novembar", "decembar"]
  halves := ("", "")

def catalan : DateNames where
  shortDays := ["dg.", "dl.", "dt.", "dc.", "dj.", "dv.", "ds."]
  longDays := ["diumenge", "dilluns", "dimarts", "dimecres", "dijous", "divendres", "dissabte"]
  shortMonths := ["de gen.", "de febr.", "de març", "d’abr.", "de maig", "de juny", "de jul.", "d’ag.",
    "de set.", "d’oct.", "de nov.", "de des."]
  longMonths := ["de gener", "de febrer", "de març", "d’abril", "de maig", "de juny", "de juliol",
    "d’agost", "de setembre", "d’octubre", "de novembre", "de desembre"]
  halves := ("a. m.", "p. m.")

def byLocale : List (String × DateNames) :=
  [
    ("en_US", english),
    ("en_GB", britishEnglish),
    ("de_DE", german),
    ("de_DE@euro", german),
    ("de_AT", austrianGerman),
    ("fr_FR", french),
    ("fr_CA", canadianFrench),
    ("es_ES", spanish),
    ("es_MX", spanish),
    ("it_IT", italian),
    ("ja_JP", japanese),
    ("nl_NL", dutch),
    ("pt_PT", portuguese),
    ("pt_BR", portuguese),
    ("zh_CN", chinese),
    ("fi_FI", finnish),
    ("ru_RU", russian),
    ("sr_RS", serbian),
    ("sr_RS@latin", serbianLatin),
    ("ca_ES", catalan),
    ("ca_ES@valencia", catalan)
  ]

end DateNames

end Mustache
