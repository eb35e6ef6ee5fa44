/-! The fixed part of the generated runtime module: choosing a language, looking phrases up and
filling placeholders in. -/

set_option autoImplicit false

namespace PhraseCatalog.Emit

/-- The lines of the runtime that do not depend on a run. -/
def runtimeLines : List String := [
  "",
  "type I18nMap = Record<string, Record<string, string>>;",
  "type TemplateInput = TemplateStringsArray | string;",
  "",
  "const source = i18nSource as I18nMap;",
  "",
  "export const defaultLanguage = \"en\";",
  "",
  "/**",
  " * Where locale information comes from and where the user's choice is stored.",
  " * Pass a custom context to createI18n() to resolve languages outside a browser",
  " * or to exercise several locales side by side.",
  " */",
  "export interface LocaleContext \x7b",
  "\tgetStoredLanguage(): string | null;",
  "\tgetEnvironmentLocale(): string | null;",
  "\tpersistLanguage(lng: string): void;",
  "\treload(): void;",
  "\x7d",
  "",
  "const isBrowser = () => typeof window !== \"undefined\";",
  "",
  "export const browserLocaleContext: LocaleContext = \x7b",
  "\tgetStoredLanguage: () => (isBrowser() ? localStorage.getItem(\"lang\") : null),",
  "\tgetEnvironmentLocale: () => (isBrowser() ? navigator.language : null),",
  "\tpersistLanguage: (lng: string) => \x7b",
  "\t\tif (isBrowser()) \x7b",
  "\t\t\tlocalStorage.setItem(\"lang\", lng);",
  "\t\t\x7d",
  "\t\x7d,",
  "\treload: () => \x7b",
  "\t\tif (isBrowser()) \x7b",
  "\t\t\tlocation.reload();",
  "\t\t\x7d",
  "\t\x7d,",
  "\x7d;",
  "",
  "export function detectLanguage(",
  "\tcontext: LocaleContext = browserLocaleContext,",
  "): string \x7b",
  "\tlet lng = context.getStoredLanguage();",
  "\tif (!lng) \x7b",
  "\t\tconst locale = context.getEnvironmentLocale();",
  "\t\tif (!locale) \x7b",
  "\t\t\treturn defaultLanguage;",
  "\t\t\x7d",
  "\t\tlng = locale.slice(0, 2).toLowerCase();",
  "\t\x7d",
  "\treturn langs[lng] || defaultLanguage;",
  "\x7d",
  "",
  "function template(strings: TemplateInput, values: (string | number)[]): string \x7b",
  "\tif (typeof strings === \"string\") \x7b",
  "\t\treturn strings;",
  "\t\x7d",
  "\tlet result = \"\";",
  "\tfor (let i = 0; i < strings.length; i++) \x7b",
  "\t\tresult += strings[i];",
  "\t\tif (i < values.length) \x7b",
  "\t\t\tresult += values[i];",
  "\t\t\x7d",
  "\t\x7d",
  "\treturn result;",
  "\x7d",
  "",
  "export function i18nKey(text: string): string \x7b",
  "\treturn text;",
  "\x7d",
  "",
  "export function i18nObj(",
  "\tstrings: TemplateInput,",
  "\t...values: (string | number)[]",
  "): Record<string, string> \x7b",
  "\tconst result = template(strings, values);",
  "\treturn source[result] || nofound;",
  "\x7d",
  "",
  "export function i18nId(",
  "\tstrings: TemplateInput,",
  "\t...values: (string | number)[]",
  "): number \x7b",
  "\tconst result = template(strings, values);",
  "\treturn i18nSourceIdMap[result] || 0;",
  "\x7d",
  "",
  "export function createI18n(context: LocaleContext = browserLocaleContext) \x7b",
  "\tlet lastLang = \"\";",
  "",
  "\tconst getLanguage = (): string => \x7b",
  "\t\tif (!lastLang) \x7b",
  "\t\t\tlastLang = detectLanguage(context);",
  "\t\t\x7d",
  "\t\treturn lastLang;",
  "\t\x7d;",
  "",
  "\tconst setLanguage = (lng: string): void => \x7b",
  "\t\tlastLang = lng;",
  "\t\tcontext.persistLanguage(lng);",
  "\t\tcontext.reload();",
  "\t\x7d;",
  "",
  "\tconst i18n = (",
  "\t\tstrings: TemplateInput,",
  "\t\t...values: (string | number)[]",
  "\t): string => \x7b",
  "\t\tconst result = template(strings, values);",
  "\t\tconst entry = source[result];",
  "\t\tif (!entry) \x7b",
  "\t\t\treturn result;",
  "\t\t\x7d",
  "\t\treturn entry[getLanguage()];",
  "\t\x7d;",
  "",
  "\tconst i18nFromKey = (key: string): string => \x7b",
  "\t\tconst entry = source[key];",
  "\t\tif (!entry) \x7b",
  "\t\t\treturn key;",
  "\t\t\x7d",
  "\t\treturn entry[getLanguage()];",
  "\t\x7d;",
  "",
  "\treturn \x7b getLanguage, setLanguage, i18n, i18nFromKey \x7d;",
  "\x7d",
  "",
  "export const \x7b getLanguage, setLanguage, i18n, i18nFromKey \x7d = createI18n();",
  "",
  "export function replaceI18n(str: string, obj: Record<string, unknown>) \x7b",
  "\tif (str === void 0) \x7b",
  "\t\treturn \"[replace-i18n string is undefined]\";",
  "\t\x7d",
  "\tif (typeof obj !== \"object\") \x7b",
  "\t\treturn \"[replace-i18n data is not object]\";",
  "\t\x7d",
  "\treturn str.replace(/\x7b(\\w*)\x7d/g, (_, p1 = \"\") => \x7b",
  "\t\treturn Object.prototype.hasOwnProperty.call(obj, p1)",
  "\t\t\t? (obj[p1] as string)",
  "\t\t\t: `[Not found: $\x7bp1\x7d]`;",
  "\t\x7d);",
  "\x7d",
  ""]

/-- The characters of lines, one line after another. -/
theorem map_toList_cons {line : String} {s : List Char} {lines : List String}
    {rest : List (List Char)} (hline : line = String.ofList s)
    (hlines : lines.map String.toList = rest) :
    (line :: lines).map String.toList = s :: rest := by
  rw [List.map_cons, hline, String.toList_ofList, hlines]

def runtimeText : String := String.intercalate "\n" runtimeLines

end PhraseCatalog.Emit
